/-
**The plans of a cluster and of a gateway are well formed.**

Each operation of `clusterPlan`, `recoveryPlan`, `gatewayPlan` and `gatewayRecoveryPlan` with the references it is
written with and the configured texts that are filled into it.

* `clusterParts`, `recoveryParts`, `gatewayParts`, `gatewayRecoveryParts` — the plans so told apart.
* `nodup_clusterPlan`, `nodup_gatewayPlan` — no label is used twice.
* `plans_wellFormed_iff` — **a plan is well formed exactly where each configured text that begins with `#`
  names a label of an operation before.**
* `unescaped_contact` — a contact that begins with `#`.
-/

import Mathlib.Data.List.Flatten
import SuiteCloud.Mail.Cluster.Plan.Model
import SuiteCloud.Mail.Cluster.RoutePush
import SuiteCloud.Mail.Stalwart.Labels

namespace SuiteCloud.Mail.Cluster.Plan

open SuiteCloud.Library
open SuiteCloud.Mail.Stalwart

/-! ## The parts -/

/-- An operation that nothing is filled into. -/
def fixedPart (operation : Operation) : Part := ⟨operation, [], []⟩

def coordinatorPart (coordinator : String) : Part := ⟨coordinatorOperation coordinator, [], [coordinator]⟩

def telemetryParts (settings : Settings) (hasEveryToken : Bool) : List Part :=
  [⟨webhookOperation settings (isPushEnabled settings hasEveryToken), [],
      ["events", "errors", "warnings"].map (webhookUrl settings)⟩,
    ⟨metricsOperation settings (isPushEnabled settings hasEveryToken), [],
      if isPushEnabled settings hasEveryToken then [apiUrl settings "otlp"] else []⟩]

/-- The texts of the provider's fields. -/
def dnsServerTexts : Option DnsProvider → List String
  | some (.cloudflare token) | some (.digitalOcean token) | some (.hetzner token) | some (.linode token) =>
      (given token).toList
  | some (.amazonRoute53 accessKey accessSecret) => accessKey.toList ++ (given accessSecret).toList
  | some (.namecheap username token clientIp) => username.toList ++ (given token).toList ++ clientIp.toList
  | some (.goDaddy key secret) => key.toList ++ (given secret).toList
  | none => []

def dnsServerParts (zone : DnsZone) : List Part :=
  ((stalwartDnsServer zone).map fun dnsServer =>
    ⟨dnsServerOperation dnsServer, [], dnsServerTexts zone.dnsProvider⟩).toList

def acmePart (settings : Settings) (cluster : StalwartCluster) : Part :=
  ⟨acmeOperation settings cluster, [],
    (acmeDirectory settings cluster).toList ++ (acmeContact settings cluster).toList⟩

/-- What a domain is written to refer to. -/
def domainReferences (cluster : StalwartCluster) : List String :=
  "acme" :: if (stalwartDnsServer cluster.dnsZone).isSome then ["dns"] else []

/-- The zone, where it is sent. -/
def originTexts (cluster : StalwartCluster) : List String :=
  if (stalwartDnsServer cluster.dnsZone).isSome then [cluster.dnsZone.domainName] else []

def systemPart (hostname label mailExchanger : String) : Part :=
  ⟨.update "SystemSettings" "" (systemSettings hostname ("#" ++ label) mailExchanger), [label],
    [hostname, mailExchanger]⟩

/-- The DNS server, the certificates and the domain of a cluster. -/
def domainParts (settings : Settings) (cluster : StalwartCluster) : List Part :=
  dnsServerParts cluster.dnsZone ++
    [acmePart settings cluster,
      ⟨domainOperation settings cluster (stalwartDnsServer cluster.dnsZone).isSome, domainReferences cluster,
        cluster.defaultDomain :: originTexts cluster⟩,
      systemPart cluster.hostname "default" cluster.hostname]

/-- What is configured of a relay route. -/
def relayTexts (relay : Routes.Relay) : List String :=
  relay.address :: relay.authUsername :: (given (some relay.authSecret)).toList

/-- An operation of the routes, whose expression keeps the foreign texts of the one that is there. -/
def routePart (site : Routes.Site) (cluster : StalwartCluster) (answer : Option (Option Routes.Expression)) :
    Routes.Operation → Part
  | .upsertRoutes routes => ⟨routeOperation (.upsertRoutes routes), [],
      routes.flatMap fun entry => relayTexts entry.2⟩
  | .updateStrategy route => ⟨routeOperation (.updateStrategy route), [],
      Routes.foreignTexts site cluster.toStalwartCluster
        (Routes.currentRouteExpression cluster.toStalwartCluster answer)⟩

def egressParts (site : Routes.Site) (cluster : StalwartCluster) (answer : Option (Option Routes.Expression)) :
    List Part :=
  (Routes.clusterOperations site cluster.toStalwartCluster answer).map (routePart site cluster answer)

/-- The parts of a cluster's plan before the domain's. -/
def firstParts (settings : Settings) (cluster : StalwartCluster) : List Part :=
  coordinatorPart ((given cluster.coordinator).getD "Disabled") :: (defaultsPlan settings).map fixedPart ++
    [fixedPart tracerOperation] ++ telemetryParts settings cluster.hasEveryToken

/-- The parts of a cluster's plan after the domain's. -/
def lastParts (settings : Settings) (site : Routes.Site) (cluster : StalwartCluster)
    (answer : Option (Option Routes.Expression)) : List Part :=
  fixedPart disabledRoleOperation :: egressParts site cluster answer ++
    [⟨hookOperation settings cluster, [], [hookUrl settings]⟩, fixedPart (backstopOperation cluster),
      fixedPart (milterOperation settings cluster)]

/-- **The operations of `cluster_plan`.** -/
def clusterParts (settings : Settings) (site : Routes.Site) (cluster : StalwartCluster)
    (answer : Option (Option Routes.Expression)) : List Part :=
  firstParts settings cluster ++ domainParts settings cluster ++ lastParts settings site cluster answer

def adminPart (adminUsername : Option String) (adminPassword : String) : Part :=
  ⟨adminAccountOperation adminUsername adminPassword, [], [(given adminUsername).getD "admin", adminPassword]⟩

/-- **The operations of `recovery_plan`.** -/
def recoveryParts (settings : Settings) (site : Routes.Site) (cluster : StalwartCluster)
    (answer : Option (Option Routes.Expression)) : List Part :=
  ((clusterParts settings site cluster answer).filter fun part =>
      object part.operation ∉ defaultsProvisionedByStalwart) ++
    [adminPart cluster.adminUsername cluster.adminPassword]

/-- The DNS server, the certificates, the domain and the login of a gateway. -/
def gatewayDomainParts (settings : Settings) (cluster : StalwartCluster) (gateway : EgressGateway) : List Part :=
  dnsServerParts cluster.dnsZone ++
    [acmePart settings cluster,
      ⟨gatewayDomainOperation settings cluster gateway (stalwartDnsServer cluster.dnsZone).isSome,
        domainReferences cluster, gateway.hostname :: originTexts cluster⟩,
      systemPart gateway.hostname "gateway" cluster.hostname,
      ⟨relayAccountOperation cluster, ["gateway"], [relayUsername cluster, cluster.relayPassword]⟩]

/-- The pools whose strategies are sent: the last of a name. -/
def strategyPools (gateway : EgressGateway) : List EgressIPPool :=
  (Dict.ofList ((hostedPools gateway).map fun pool => (pool.poolName, pool))).map Prod.snd

/-- The texts of a pool's strategy. -/
def strategyTexts (gateway : EgressGateway) (pool : EgressIPPool) : List String :=
  gateway.hostname ::
    (addressesOn pool gateway.name).flatMap fun address => [address.ipAddress, address.ehloHostname]

def poolParts (gateway : EgressGateway) : List Part :=
  if listeners gateway = [] then []
  else [fixedPart (.upsert "NetworkListener" ["name"] (listeners gateway)),
    ⟨.upsert "MtaConnectionStrategy" ["name"] (strategies gateway), [],
      (strategyPools gateway).flatMap (strategyTexts gateway)⟩]

/-- The parts of a gateway's plan after the domain's. -/
def gatewayLastParts (settings : Settings) (gateway : EgressGateway) : List Part :=
  poolParts gateway ++ (gatewayDefaultsPlan settings).map fixedPart ++ [fixedPart tracerOperation] ++
    telemetryParts settings gateway.hasEveryToken ++
    [fixedPart (stageAuthOperation gateway), fixedPart (connectionOperation gateway)]

/-- **The operations of `gateway_plan`.** -/
def gatewayParts (settings : Settings) (cluster : StalwartCluster) (gateway : EgressGateway) : List Part :=
  [coordinatorPart "Disabled"] ++ gatewayDomainParts settings cluster gateway ++ gatewayLastParts settings gateway

/-- **The operations of `gateway_recovery_plan`.** -/
def gatewayRecoveryParts (settings : Settings) (cluster : StalwartCluster) (gateway : EgressGateway) :
    List Part :=
  gatewayParts settings cluster gateway ++ [adminPart gateway.adminUsername gateway.adminPassword]

section Operations

variable (settings : Settings) (site : Routes.Site) (cluster : StalwartCluster)
  (answer : Option (Option Routes.Expression)) (gateway : EgressGateway)

theorem map_fixedPart (operations : List Operation) :
    (operations.map fixedPart).map Part.operation = operations := by
  rw [List.map_map]
  exact List.map_id operations

theorem map_egressParts :
    (egressParts site cluster answer).map Part.operation = egressOperations site cluster answer := by
  rw [egressParts, List.map_map, egressOperations]
  exact List.map_congr_left fun operation _ => by cases operation <;> rfl

theorem map_dnsServerParts (zone : DnsZone) : (dnsServerParts zone).map Part.operation =
    ((stalwartDnsServer zone).map dnsServerOperation).toList := by
  rw [dnsServerParts]
  cases stalwartDnsServer zone <;> rfl

theorem map_clusterParts :
    (clusterParts settings site cluster answer).map Part.operation = clusterPlan settings site cluster answer := by
  simp only [clusterParts, firstParts, lastParts, List.map_append, List.map_cons, map_fixedPart, map_egressParts,
    domainParts, map_dnsServerParts, clusterPlan, telemetryParts, telemetryOperations, List.append_assoc, List.map_nil,
    List.cons_append, List.nil_append]
  rfl

theorem map_recoveryParts : (recoveryParts settings site cluster answer).map Part.operation =
    recoveryPlan settings site cluster answer := by
  rw [recoveryParts, recoveryPlan, ← map_clusterParts, List.map_append, List.filter_map]
  rfl

theorem map_gatewayParts :
    (gatewayParts settings cluster gateway).map Part.operation = gatewayPlan settings cluster gateway := by
  have pools : (poolParts gateway).map Part.operation = poolOperations gateway := by
    rw [poolParts, poolOperations]
    split <;> rfl
  simp only [gatewayParts, gatewayLastParts, List.map_append, List.map_cons, map_fixedPart, pools, gatewayDomainParts,
    map_dnsServerParts, gatewayPlan, telemetryParts, telemetryOperations, List.append_assoc, List.map_nil,
    List.cons_append, List.nil_append]
  rfl

theorem map_gatewayRecoveryParts : (gatewayRecoveryParts settings cluster gateway).map Part.operation =
    gatewayRecoveryPlan settings cluster gateway := by
  rw [gatewayRecoveryParts, gatewayRecoveryPlan, List.map_append, map_gatewayParts]
  rfl

end Operations

/-! ## References -/

/-! ### Values -/

@[simp] theorem references_ofBool (b : Bool) : (ofBool b).references = [] := rfl

@[simp] theorem references_variant {name : String} (plain : labelOf name = none) :
    (variant name).references = [] := by
  simp (disch := first | assumption | (refine labelOf_ofList ?_; simp)) [variant]

@[simp] theorem mem_references_ofText {label : String} {text : Option String} :
    label ∈ (ofText text).references ↔ ∃ filled ∈ text, labelOf filled = some label := by
  cases text with
  | none => simp [ofText]
  | some text => simp [ofText, Value.mem_references_text]

@[simp] theorem mem_references_secretValue {label : String} {secret : Option String} :
    label ∈ (secretValue secret).references ↔ ∃ filled ∈ given secret, labelOf filled = some label := by
  rw [secretValue]
  cases given secret with
  | none => simp
  | some secret =>
    simp (disch := refine labelOf_ofList ?_; simp) only [Value.references_dict,
      Value.referencesMembers_plain, Value.references_plain, Value.referencesMembers_nil, List.nil_append,
      List.append_nil]
    simp [Value.mem_references_text]

@[simp] theorem mem_references_asSet {label : String} {values : List String} :
    label ∈ (asSet values).references ↔ ∃ value ∈ values, labelOf value = some label := by
  rw [asSet, Value.references_dict, Value.mem_referencesMembers]
  constructor
  · rintro ⟨member, there, refers⟩
    obtain ⟨value, among, rfl⟩ := List.mem_map.mp (Dict.mem_of_mem_ofList there)
    exact ⟨value, among, refers.resolve_right List.not_mem_nil⟩
  · rintro ⟨value, among, refers⟩
    have key : value ∈ (Dict.ofList (values.map fun value => (value, Value.num 1))).keys := by
      rw [Dict.mem_keys_ofList, List.map_map]
      exact List.mem_map.mpr ⟨value, among, rfl⟩
    obtain ⟨member, there, rfl⟩ := List.mem_map.mp key
    exact ⟨member, there, Or.inl refers⟩

@[simp] theorem mem_references_asList {label : String} {items : List Value} :
    label ∈ (asList items).references ↔ ∃ item ∈ items, label ∈ item.references := by
  rw [asList, Value.references_dict, Value.mem_referencesMembers]
  constructor
  · rintro ⟨member, there, refers⟩
    obtain ⟨⟨item, index⟩, among, rfl⟩ := List.mem_map.mp there
    exact ⟨item, List.fst_mem_of_mem_zipIdx among, refers.resolve_left (refers_plain (labelOf_toString index))⟩
  · rintro ⟨item, there, refers⟩
    obtain ⟨index, within, rfl⟩ := List.mem_iff_getElem.mp there
    have among : (items[index], index) ∈ items.zipIdx := List.mem_zipIdx_iff_getElem?.mpr (by simp [within])
    exact ⟨_, List.mem_map.mpr ⟨_, among, rfl⟩, Or.inr refers⟩

/-! ### Operations that nothing is filled into -/

theorem fixedPart_carries {operation : Operation} (plain : ∀ label, label ∉ operation.references) :
    (fixedPart operation).Carries := by
  intro label
  exact iff_of_false (plain label) (by simp [fixedPart])

theorem tracerPart_carries : (fixedPart tracerOperation).Carries := by
  refine fixedPart_carries fun label => ?_
  simp (disch := refine labelOf_ofList ?_; simp) [Operation.references, tracerOperation, logTracer,
    journalTracer]

theorem rolesPart_carries : (fixedPart (.upsert "ClusterRole" ["name"] clusterRoles)).Carries := by
  refine fixedPart_carries fun label => ?_
  simp (disch := refine labelOf_ofList ?_; simp) [Operation.references, clusterRoles, refers_plain]

theorem disabledRolePart_carries : (fixedPart disabledRoleOperation).Carries := by
  refine fixedPart_carries fun label => ?_
  simp (disch := refine labelOf_ofList ?_; simp) [Operation.references, disabledRoleOperation]

theorem dnsResolverPart_carries : (fixedPart dnsResolverOperation).Carries := by
  refine fixedPart_carries fun label => ?_
  simp (disch := refine labelOf_ofList ?_; simp) [Operation.references, dnsResolverOperation, localServer]

theorem labelOf_spamRulesUrl (version : String) : labelOf (spamRulesUrl version) = none := by
  unfold spamRulesUrl
  rewrite [String.append_assoc]
  exact labelOf_ofList_append _ rfl

theorem spamSettingsParts_carry (settings : Settings) :
    ∀ part ∈ (spamSettingsOperations settings).map fixedPart, part.Carries := by
  rw [spamSettingsOperations]
  cases given settings.spamFilterRulesVersion with
  | none => simp
  | some version =>
    refine List.forall_mem_singleton.mpr (fixedPart_carries fun label => ?_)
    have plain := labelOf_spamRulesUrl version
    simp (disch := first | assumption | (refine labelOf_ofList ?_; simp)) [Operation.references]

theorem references_condition {rules : List String} (plain : ∀ rule ∈ rules, labelOf rule = none)
    (label : String) : label ∉ (condition rules).references := by
  have each : ∀ rule ∈ rules,
      label ∉ (Value.dict [("if", .text rule), ("then", .text "true")]).references := by
    intro rule there
    have none := plain rule there
    simp (disch := first | assumption | (refine labelOf_ofList ?_; simp))
  simpa (disch := refine labelOf_ofList ?_; simp) [condition] using each

@[simp] theorem references_signedIn (label : String) : label ∉ signedIn.references :=
  references_condition (List.forall_mem_singleton.mpr (labelOf_ofList rfl)) label

@[simp] theorem references_never (label : String) : label ∉ never.references :=
  references_condition (List.forall_mem_nil _) label

@[simp] theorem references_scanned (label : String) : label ∉ scanned.references :=
  references_condition (List.forall_mem_singleton.mpr (labelOf_ofList_append _ rfl)) label

theorem backstopPart_carries (cluster : StalwartCluster) : (fixedPart (backstopOperation cluster)).Carries := by
  refine fixedPart_carries fun label => ?_
  simp (disch := refine labelOf_ofList ?_; simp) [Operation.references, backstopOperation, refers_plain]

theorem milterPart_carries (settings : Settings) (cluster : StalwartCluster) :
    (fixedPart (milterOperation settings cluster)).Carries := by
  refine fixedPart_carries fun label => ?_
  have enable : label ∉ (if isScanEnabled settings cluster then scanned else never).references := by
    split
    · exact references_scanned label
    · exact references_never label
  simp (disch := refine labelOf_ofList ?_; simp) [Operation.references, milterOperation, enable,
    refers_plain]

/-! ### Telemetry -/

theorem plain_webhookEvents : ∀ event ∈ webhookEvents, labelOf event = none := by
  unfold webhookEvents
  repeat refine List.forall_mem_cons.mpr ⟨labelOf_ofList rfl, ?_⟩
  exact List.forall_mem_nil _

theorem plain_errorEvents : ∀ event ∈ errorEvents, labelOf event = none := by
  unfold errorEvents
  repeat refine List.forall_mem_cons.mpr ⟨labelOf_ofList rfl, ?_⟩
  exact List.forall_mem_nil _

theorem plain_warnEvents : ∀ event ∈ warnEvents, labelOf event = none := by
  unfold warnEvents
  repeat refine List.forall_mem_cons.mpr ⟨labelOf_ofList rfl, ?_⟩
  exact List.forall_mem_nil _

@[simp] theorem references_bearerAuth (label : String) : label ∉ bearerAuth.references := by
  simp (disch := refine labelOf_ofList ?_; simp) [bearerAuth]

theorem mem_references_webhook (settings : Settings) (enabled : Bool) (label : String)
    {stream level : String} {events : List String} (plainStream : labelOf stream = none)
    (plainLevel : labelOf level = none) (plainEvents : ∀ event ∈ events, labelOf event = none) :
    label ∈ Value.referencesMembers (webhook settings stream level events enabled) ↔
      labelOf (webhookUrl settings stream) = some label := by
  have none : ¬ ∃ event ∈ events, labelOf event = some label := by
    rintro ⟨event, there, refers⟩
    exact refers_plain (plainEvents event there) refers
  simp (disch := first | assumption | (refine labelOf_ofList ?_; simp)) [webhook,
    Value.mem_references_text, none]

theorem telemetryParts_carry (settings : Settings) (hasEveryToken : Bool) :
    ∀ part ∈ telemetryParts settings hasEveryToken, part.Carries := by
  refine List.forall_mem_cons.mpr ⟨fun label => ?_, List.forall_mem_singleton.mpr fun label => ?_⟩
  · have events := mem_references_webhook settings (isPushEnabled settings hasEveryToken) label
      (labelOf_ofList rfl : labelOf "events" = none) (labelOf_ofList rfl : labelOf "info" = none)
      plain_webhookEvents
    have errors := mem_references_webhook settings (isPushEnabled settings hasEveryToken) label
      (labelOf_ofList rfl : labelOf "errors" = none)
      (labelOf_ofList rfl : labelOf "error" = none) plain_errorEvents
    have warnings := mem_references_webhook settings (isPushEnabled settings hasEveryToken) label
      (labelOf_ofList rfl : labelOf "warnings" = none)
      (labelOf_ofList rfl : labelOf "warn" = none) plain_warnEvents
    simp [Operation.references, webhookOperation, events, errors, warnings]
  · cases isPushEnabled settings hasEveryToken with
    | false => simp (disch := refine labelOf_ofList ?_; simp) [Operation.references, metricsOperation]
    | true =>
      simp (disch := refine labelOf_ofList ?_; simp) [Operation.references, metricsOperation, otlpExporter,
        Value.mem_references_text]

/-! ### The DNS server, the certificates and the domain -/

theorem dnsServerParts_carry (zone : DnsZone) : ∀ part ∈ dnsServerParts zone, part.Carries := by
  intro part there
  rw [dnsServerParts, stalwartDnsServer] at there
  cases found : zone.dnsProvider with
  | none => simp [found] at there
  | some provider =>
    obtain rfl := List.mem_singleton.mp (found ▸ there)
    have plain : labelOf ("suite-cloud-" ++ zone.domainName) = none := labelOf_ofList_append _ rfl
    intro label
    cases provider <;>
      simp (disch := first | assumption | (refine labelOf_ofList ?_; simp)) [Operation.references,
        dnsServerOperation, dnsServerBase, dnsServerTexts, or_and_right, exists_or]

theorem acmePart_carries (settings : Settings) (cluster : StalwartCluster) :
    (acmePart settings cluster).Carries := by
  intro label
  cases contact : acmeContact settings cluster <;>
    simp (disch := refine labelOf_ofList ?_; simp) [Operation.references, acmePart, acmeOperation,
      acmeProvider, contact, Value.mem_referencesMembers, or_and_right, exists_or]

theorem labelOf_acme : labelOf "#acme" = some "acme" := labelOf_hash

theorem labelOf_dns : labelOf "#dns" = some "dns" := labelOf_hash

theorem labelOf_default : labelOf "#default" = some "default" := labelOf_hash

theorem labelOf_gateway : labelOf "#gateway" = some "gateway" := labelOf_hash

theorem mem_references_certificateManagement {label : String} {names : List String} :
    label ∈ (certificateManagement names).references ↔
      label = "acme" ∨ ∃ name ∈ names, labelOf name = some label := by
  simp (disch := refine labelOf_ofList ?_; simp) [certificateManagement, Value.mem_references_text,
    labelOf_acme, eq_comm]

theorem references_dkimManagement (settings : Settings) (label : String) :
    label ∉ (dkimManagementPayload (dkimAlgorithms settings)).references := by
  have algorithms : ∀ algorithm ∈ dkimAlgorithms settings, labelOf algorithm = none := by
    rw [dkimAlgorithms]
    split
    · exact List.forall_mem_cons.mpr
        ⟨labelOf_ofList rfl, List.forall_mem_singleton.mpr (labelOf_ofList rfl)⟩
    · exact List.forall_mem_singleton.mpr (labelOf_ofList rfl)
  have none : ¬ ∃ algorithm ∈ dkimAlgorithms settings, labelOf algorithm = some label := by
    rintro ⟨algorithm, there, refers⟩
    exact refers_plain (algorithms algorithm there) refers
  rw [dkimManagementPayload]
  split
  · simp (disch := refine labelOf_ofList ?_; simp)
  · simp (disch := refine labelOf_ofList ?_; simp) [none]

theorem mem_references_dnsManagement {cluster : StalwartCluster} {withDns : Bool} {label : String} :
    label ∈ (dnsManagement cluster withDns).references ↔
      withDns = true ∧ (label = "dns" ∨ labelOf cluster.dnsZone.domainName = some label) := by
  cases withDns with
  | false => simp (disch := refine labelOf_ofList ?_; simp) [dnsManagement]
  | true =>
    simp (disch := refine labelOf_ofList ?_; simp) [dnsManagement, publishedRecordTypes,
      Value.mem_references_text, labelOf_dns, eq_comm]

theorem labelOf_wildcard (domain : String) : labelOf ("*." ++ domain) = none :=
  labelOf_ofList_append _ rfl

theorem domainPart_carries (settings : Settings) (cluster : StalwartCluster) :
    Part.Carries ⟨domainOperation settings cluster (stalwartDnsServer cluster.dnsZone).isSome,
      domainReferences cluster, cluster.defaultDomain :: originTexts cluster⟩ := by
  intro label
  have wildcard := labelOf_wildcard cluster.defaultDomain
  rw [domainReferences, originTexts]
  cases (stalwartDnsServer cluster.dnsZone).isSome <;>
    simp (disch := first | assumption | (refine labelOf_ofList ?_; simp)) [Operation.references,
      domainOperation, defaultDomain, Value.mem_references_text, mem_references_certificateManagement,
      references_dkimManagement, mem_references_dnsManagement, refers_plain] <;> tauto

theorem gatewayDomainPart_carries (settings : Settings) (cluster : StalwartCluster) (gateway : EgressGateway) :
    Part.Carries ⟨gatewayDomainOperation settings cluster gateway (stalwartDnsServer cluster.dnsZone).isSome,
      domainReferences cluster, gateway.hostname :: originTexts cluster⟩ := by
  intro label
  have wildcard := labelOf_wildcard ("out." ++ cluster.defaultDomain)
  rw [domainReferences, originTexts]
  cases (stalwartDnsServer cluster.dnsZone).isSome <;>
    simp (disch := first | assumption | (refine labelOf_ofList ?_; simp)) [Operation.references,
      gatewayDomainOperation, gatewayDomain, Value.mem_references_text, mem_references_certificateManagement,
      references_dkimManagement, mem_references_dnsManagement, refers_plain] <;> tauto

theorem systemPart_carries (hostname label mailExchanger : String) :
    (systemPart hostname label mailExchanger).Carries := by
  intro other
  have own : labelOf ("#" ++ label) = some label := labelOf_hash_append label
  simp (disch := refine labelOf_ofList ?_; simp) [Operation.references, systemPart, systemSettings,
    Value.mem_references_text, own]
  tauto

/-! ### Accounts and the hook -/

theorem adminPart_carries (adminUsername : Option String) (adminPassword : String) :
    (adminPart adminUsername adminPassword).Carries := by
  intro label
  simp (disch := refine labelOf_ofList ?_; simp) [Operation.references, adminPart, adminAccountOperation,
    Value.mem_references_text]

theorem relayAccountPart_carries (cluster : StalwartCluster) :
    Part.Carries ⟨relayAccountOperation cluster, ["gateway"], [relayUsername cluster, cluster.relayPassword]⟩ := by
  intro label
  simp (disch := refine labelOf_ofList ?_; simp) [Operation.references, relayAccountOperation,
    Value.mem_references_text, labelOf_gateway]
  tauto

theorem hookPart_carries (settings : Settings) (cluster : StalwartCluster) :
    Part.Carries ⟨hookOperation settings cluster, [], [hookUrl settings]⟩ := by
  intro label
  have enable : label ∉ (if cluster.hasEveryToken then signedIn else never).references := by
    split
    · exact references_signedIn label
    · exact references_never label
  simp (disch := refine labelOf_ofList ?_; simp) [Operation.references, hookOperation, enable,
    Value.mem_references_text, refers_plain]

theorem coordinatorPart_carries (coordinator : String) : (coordinatorPart coordinator).Carries := by
  intro label
  simp (disch := refine labelOf_ofList ?_; simp) [Operation.references, coordinatorPart,
    coordinatorOperation, Value.mem_references_text]

/-! ### Pools -/

theorem gatewayRolePart_carries (settings : Settings) :
    ∀ part ∈ (gatewayDefaultsPlan settings).map fixedPart, part.Carries := by
  refine List.forall_mem_cons.mpr ⟨fixedPart_carries fun label => ?_, List.forall_mem_cons.mpr
    ⟨dnsResolverPart_carries, spamSettingsParts_carry settings⟩⟩
  simp (disch := refine labelOf_ofList ?_; simp) [Operation.references, refers_plain]

theorem listenersPart_carries (gateway : EgressGateway) :
    (fixedPart (.upsert "NetworkListener" ["name"] (listeners gateway))).Carries := by
  refine fixedPart_carries fun label refers => ?_
  obtain ⟨entry, there, refers⟩ := List.mem_flatMap.mp refers
  obtain ⟨pool, -, rfl⟩ := List.mem_map.mp (Dict.mem_of_mem_ofList there)
  have name : labelOf (listenerName pool) = none := labelOf_ofList_append _ rfl
  simp (disch := first | assumption | (refine labelOf_ofList ?_; simp) |
    (refine labelOf_ofList_append _ ?_; simp)) [listener] at refers

theorem mem_references_strategy {gateway : EgressGateway} {pool : EgressIPPool} {label : String} :
    label ∈ Value.referencesMembers (strategy gateway pool) ↔
      ∃ text ∈ strategyTexts gateway pool, labelOf text = some label := by
  obtain ⟨n, named⟩ := pool.numbered
  have name : labelOf pool.poolName = none := named ▸ labelOf_ofList_append _ rfl
  have description : labelOf ("Egress pool " ++ pool.poolName) = none := labelOf_ofList_append _ rfl
  simp (disch := first | assumption | (refine labelOf_ofList ?_; simp)) [strategy, strategyTexts, sourceIp,
    Value.mem_references_text]
  refine or_congr_right ⟨?_, ?_⟩
  · rintro ⟨address, there, source | ehlo⟩
    · exact ⟨_, ⟨address, there, Or.inl rfl⟩, source⟩
    · exact ⟨_, ⟨address, there, Or.inr rfl⟩, ehlo⟩
  · rintro ⟨text, ⟨address, there, rfl | rfl⟩, refers⟩
    · exact ⟨address, there, Or.inl refers⟩
    · exact ⟨address, there, Or.inr refers⟩

theorem strategies_eq (gateway : EgressGateway) :
    (strategies gateway).map Prod.snd = (strategyPools gateway).map (strategy gateway) := by
  have values := Dict.ofList_map (strategy gateway) ((hostedPools gateway).map fun pool => (pool.poolName, pool))
  rw [List.map_map] at values
  rw [strategyPools, List.map_map, strategies]
  refine (congrArg (List.map Prod.snd) values).trans ?_
  rw [List.map_map]
  rfl

theorem strategiesPart_carries (gateway : EgressGateway) :
    Part.Carries ⟨.upsert "MtaConnectionStrategy" ["name"] (strategies gateway), [],
      (strategyPools gateway).flatMap (strategyTexts gateway)⟩ := by
  intro label
  have sent : Operation.references (.upsert "MtaConnectionStrategy" ["name"] (strategies gateway)) =
      ((strategies gateway).map Prod.snd).flatMap Value.referencesMembers := (List.flatMap_map ..).symm
  rw [sent, strategies_eq, List.flatMap_map]
  simp only [List.mem_flatMap, mem_references_strategy, List.not_mem_nil, false_or]
  constructor
  · rintro ⟨pool, there, text, among, refers⟩
    exact ⟨text, ⟨pool, there, among⟩, refers⟩
  · rintro ⟨text, ⟨pool, there, among⟩, refers⟩
    exact ⟨pool, there, text, among, refers⟩

theorem poolParts_carry (gateway : EgressGateway) : ∀ part ∈ poolParts gateway, part.Carries := by
  rw [poolParts]
  split
  · exact List.forall_mem_nil _
  · exact List.forall_mem_cons.mpr
      ⟨listenersPart_carries gateway, List.forall_mem_singleton.mpr (strategiesPart_carries gateway)⟩

theorem stageAuthPart_carries (gateway : EgressGateway) : (fixedPart (stageAuthOperation gateway)).Carries := by
  refine fixedPart_carries fun label => ?_
  have rules : ∀ pool, label ∉ (senderRule pool).references := by
    intro pool
    simp (disch := first | (refine labelOf_ofList ?_; simp) |
      (refine labelOf_ofList_append _ ?_; simp)) [senderRule]
  simp (disch := refine labelOf_ofList ?_; simp) [Operation.references, stageAuthOperation, rules]

theorem connectionPart_carries (gateway : EgressGateway) : (fixedPart (connectionOperation gateway)).Carries := by
  refine fixedPart_carries fun label => ?_
  have rules : ∀ pool, label ∉ (connectionRule pool).references := by
    intro pool
    have name : labelOf ("'" ++ pool.poolName ++ "'") = none := by
      rewrite [String.append_assoc]
      exact labelOf_ofList_append _ rfl
    simp (disch := first | assumption | (refine labelOf_ofList ?_; simp) |
      (refine labelOf_ofList_append _ ?_; simp)) [connectionRule]
  simp (disch := refine labelOf_ofList ?_; simp) [Operation.references, connectionOperation, rules]

/-! ### Routes -/

theorem labelOf_of_resolve {text : String} (left : resolveText (fun _ => none) text = some text) :
    labelOf text = none := by
  rw [resolveText] at left
  cases refers : labelOf text with
  | none => rfl
  | some label => simp [refers] at left

theorem mem_references_ruleValue {rule : Routes.Rule} {label : String} :
    label ∈ (ruleValue rule).references ↔ ∃ text ∈ rule.sent.texts, labelOf text = some label := by
  rw [ruleValue, Value.references_dict]
  cases target : rule.target with
  | none =>
    simp (disch := refine labelOf_ofList ?_; simp) [Value.mem_references_text, Routes.Rule.sent,
      Routes.SentRule.texts, target]
  | some target' =>
    simp (disch := refine labelOf_ofList ?_; simp) [Value.mem_references_text, Routes.Rule.sent,
      Routes.SentRule.texts, target]

theorem mem_references_expressionValue {expression : Routes.Expression} {label : String} :
    label ∈ (expressionValue expression).references ↔
      (∃ rule ∈ Routes.sentRules expression, ∃ text ∈ rule.texts, labelOf text = some label) ∨
        ∃ text ∈ expression.otherwise, labelOf text = some label := by
  simp (disch := refine labelOf_ofList ?_; simp) only [expressionValue, Value.references_dict,
    Value.referencesMembers_plain, Value.referencesMembers_nil, List.append_nil, List.mem_append,
    mem_references_asList, mem_references_ofText, List.mem_map, exists_exists_and_eq_and,
    mem_references_ruleValue, Routes.sentRules]

section Routes

variable {site : Routes.Site} {cluster : StalwartCluster} {answer : Option (Option Routes.Expression)}

theorem mem_references_routeExpression (site : Routes.Site) (cluster : StalwartCluster)
    (current : Routes.Expression) (label : String) :
    label ∈ (expressionValue (Routes.routeExpression site cluster.toStalwartCluster current
        (Routes.overridesOf site cluster.toStalwartCluster)
        (Routes.defaultPool site cluster.toStalwartCluster))).references ↔
      ∃ text ∈ Routes.foreignTexts site cluster.toStalwartCluster current, labelOf text = some label := by
  have own : ¬ ∃ rule ∈ Routes.ownSent site cluster.toStalwartCluster,
      ∃ text ∈ rule.texts, labelOf text = some label := by
    rintro ⟨rule, there, text, among, refers⟩
    have kept : rule.resolve (fun _ => none) = some rule := Routes.resolve_ownSent rule there
    exact refers_plain (labelOf_of_resolve (Routes.resolve_eq_self.mp kept text among)) refers
  have otherwise : (∃ text ∈ some (Routes.fallback site current
        (Routes.defaultPool site cluster.toStalwartCluster)), labelOf text = some label) ↔
      ∃ text ∈ if Routes.defaultPool site cluster.toStalwartCluster = none then [Routes.foreignElse current]
        else [], labelOf text = some label := by
    cases Routes.defaultPool site cluster.toStalwartCluster with
    | none => simp [Routes.fallback_none]
    | some pool =>
      have named : Routes.Plain (Routes.routeName site pool) := Routes.routeName_plain pool
      have plain := labelOf_of_resolve named.resolve
      simp [Routes.fallback_default, plain]
  rw [mem_references_expressionValue, Routes.sentRules_routeExpression, Routes.foreignTexts]
  simp only [List.mem_append, or_and_right, exists_or, or_iff_right own, List.mem_flatMap]
  refine or_congr ?_ otherwise
  constructor
  · rintro ⟨rule, there, text, among, refers⟩
    exact ⟨text, ⟨rule, there, among⟩, refers⟩
  · rintro ⟨text, ⟨rule, there, among⟩, refers⟩
    exact ⟨rule, there, text, among, refers⟩

theorem mem_references_relayMembers (pool : Routes.EgressIPPool) (label : String) :
    label ∈ Value.referencesMembers (relayMembers (Routes.relayName pool)
        (Routes.relayRoute cluster.toStalwartCluster pool)) ↔
      ∃ text ∈ relayTexts (Routes.relayRoute cluster.toStalwartCluster pool), labelOf text = some label := by
  have name : labelOf (Routes.relayName pool) = none := labelOf_ofList_append _ rfl
  have description : labelOf (Routes.relayRoute cluster.toStalwartCluster pool).description = none :=
    labelOf_ofList_append _ rfl
  simp (disch := first | assumption | (refine labelOf_ofList ?_; simp)) [relayMembers, relayTexts,
    Value.mem_references_text]

theorem egressParts_carry : ∀ part ∈ egressParts site cluster answer, part.Carries := by
  intro part there
  obtain ⟨operation, among, rfl⟩ := List.mem_map.mp there
  intro label
  cases operation with
  | upsertRoutes routes =>
    have each : ∀ entry ∈ routes, label ∈ Value.referencesMembers (relayMembers entry.1 entry.2) ↔
        ∃ text ∈ relayTexts entry.2, labelOf text = some label := by
      intro entry member
      obtain ⟨pool, rfl⟩ := Routes.route_of_pool among member
      exact mem_references_relayMembers pool label
    simp only [Operation.references, routePart, routeOperation, List.mem_flatMap, List.mem_map,
      exists_exists_and_eq_and, List.not_mem_nil, false_or]
    constructor
    · rintro ⟨entry, member, refers⟩
      obtain ⟨text, filled, names⟩ := (each entry member).mp refers
      exact ⟨text, ⟨entry, member, filled⟩, names⟩
    · rintro ⟨text, ⟨entry, member, filled⟩, names⟩
      exact ⟨entry, member, (each entry member).mpr ⟨text, filled, names⟩⟩
  | updateStrategy route =>
    have among : route ∈ Routes.strategies (Routes.clusterOperations site cluster.toStalwartCluster answer) :=
      List.mem_filterMap.mpr ⟨_, among, rfl⟩
    rw [Routes.strategies_clusterOperations, List.mem_singleton] at among
    subst among
    have expression := mem_references_routeExpression site cluster
      (Routes.currentRouteExpression cluster.toStalwartCluster answer) label
    simp (disch := refine labelOf_ofList ?_; simp) [Operation.references, routePart, routeOperation,
      expression]

end Routes

/-! ### The plans -/

section Plans

variable (settings : Settings) (site : Routes.Site) (cluster : StalwartCluster)
  (answer : Option (Option Routes.Expression)) (gateway : EgressGateway)

theorem defaultsParts_carry : ∀ part ∈ (defaultsPlan settings).map fixedPart, part.Carries :=
  List.forall_mem_cons.mpr ⟨rolesPart_carries,
    List.forall_mem_cons.mpr ⟨dnsResolverPart_carries, spamSettingsParts_carry settings⟩⟩

theorem domainParts_carry : ∀ part ∈ domainParts settings cluster, part.Carries := by
  simp only [domainParts, List.forall_mem_append, List.forall_mem_cons]
  exact ⟨dnsServerParts_carry cluster.dnsZone, acmePart_carries settings cluster,
    domainPart_carries settings cluster, systemPart_carries _ _ _, List.forall_mem_nil _⟩

theorem gatewayDomainParts_carry : ∀ part ∈ gatewayDomainParts settings cluster gateway, part.Carries := by
  simp only [gatewayDomainParts, List.forall_mem_append, List.forall_mem_cons]
  exact ⟨dnsServerParts_carry cluster.dnsZone, acmePart_carries settings cluster,
    gatewayDomainPart_carries settings cluster gateway, systemPart_carries _ _ _,
    relayAccountPart_carries cluster, List.forall_mem_nil _⟩

theorem clusterParts_carry : ∀ part ∈ clusterParts settings site cluster answer, part.Carries := by
  simp only [clusterParts, firstParts, lastParts, List.cons_append, List.forall_mem_append, List.forall_mem_cons,
    and_assoc]
  exact ⟨coordinatorPart_carries _, defaultsParts_carry settings, tracerPart_carries, List.forall_mem_nil _,
    telemetryParts_carry settings _, domainParts_carry settings cluster, disabledRolePart_carries,
    egressParts_carry, hookPart_carries settings cluster, backstopPart_carries cluster,
    milterPart_carries settings cluster, List.forall_mem_nil _⟩

theorem recoveryParts_carry : ∀ part ∈ recoveryParts settings site cluster answer, part.Carries := by
  refine List.forall_mem_append.mpr ⟨fun part there => ?_,
    List.forall_mem_singleton.mpr (adminPart_carries _ _)⟩
  exact clusterParts_carry settings site cluster answer part (List.mem_filter.mp there).1

theorem gatewayParts_carry : ∀ part ∈ gatewayParts settings cluster gateway, part.Carries := by
  simp only [gatewayParts, gatewayLastParts, List.forall_mem_append, List.forall_mem_cons, and_assoc]
  exact ⟨coordinatorPart_carries _, List.forall_mem_nil _, gatewayDomainParts_carry settings cluster gateway,
    poolParts_carry gateway, gatewayRolePart_carries settings, tracerPart_carries, List.forall_mem_nil _,
    telemetryParts_carry settings _, stageAuthPart_carries gateway, connectionPart_carries gateway,
    List.forall_mem_nil _⟩

theorem gatewayRecoveryParts_carry :
    ∀ part ∈ gatewayRecoveryParts settings cluster gateway, part.Carries :=
  List.forall_mem_append.mpr ⟨gatewayParts_carry settings cluster gateway,
    List.forall_mem_singleton.mpr (adminPart_carries _ _)⟩

/-! ## What the plans are written to refer to -/

theorem fixedPart_own {operations : List Operation} : ∀ part ∈ operations.map fixedPart, part.own = [] := by
  intro part there
  obtain ⟨operation, -, rfl⟩ := List.mem_map.mp there
  rfl

theorem egressParts_own : ∀ part ∈ egressParts site cluster answer, part.own = [] := by
  intro part there
  obtain ⟨operation, -, rfl⟩ := List.mem_map.mp there
  cases operation <;> rfl

theorem poolParts_own : ∀ part ∈ poolParts gateway, part.own = [] := by
  rw [poolParts]
  split
  · exact List.forall_mem_nil _
  · exact List.forall_mem_cons.mpr ⟨rfl, List.forall_mem_singleton.mpr rfl⟩

theorem telemetryParts_own (hasEveryToken : Bool) : ∀ part ∈ telemetryParts settings hasEveryToken, part.own = [] :=
  List.forall_mem_cons.mpr ⟨rfl, List.forall_mem_singleton.mpr rfl⟩

theorem domainParts_own : OwnFrom [] (domainParts settings cluster) := by
  rw [domainParts, dnsServerParts, domainReferences]
  cases stalwartDnsServer cluster.dnsZone with
  | none => simp [OwnFrom, Operation.labels, acmePart, acmeOperation, domainOperation, systemPart]
  | some dnsServer =>
    simp [OwnFrom, Operation.labels, acmePart, acmeOperation, domainOperation, systemPart, dnsServerOperation]

theorem gatewayDomainParts_own : OwnFrom [] (gatewayDomainParts settings cluster gateway) := by
  rw [gatewayDomainParts, dnsServerParts, domainReferences]
  cases stalwartDnsServer cluster.dnsZone with
  | none => simp [OwnFrom, Operation.labels, acmePart, acmeOperation, gatewayDomainOperation, systemPart]
  | some dnsServer =>
    simp [OwnFrom, Operation.labels, acmePart, acmeOperation, gatewayDomainOperation, systemPart,
      dnsServerOperation]

theorem firstParts_own : ∀ part ∈ firstParts settings cluster, part.own = [] := by
  simp only [firstParts, List.cons_append, List.forall_mem_append, List.forall_mem_cons, and_assoc]
  exact ⟨rfl, fixedPart_own, rfl, List.forall_mem_nil _, telemetryParts_own settings _⟩

theorem lastParts_own : ∀ part ∈ lastParts settings site cluster answer, part.own = [] := by
  simp only [lastParts, List.cons_append, List.forall_mem_append, List.forall_mem_cons]
  exact ⟨rfl, egressParts_own site cluster answer, trivial, rfl, rfl, List.forall_mem_nil _⟩

theorem gatewayLastParts_own : ∀ part ∈ gatewayLastParts settings gateway, part.own = [] := by
  simp only [gatewayLastParts, List.forall_mem_append]
  exact ⟨⟨⟨⟨poolParts_own gateway, fixedPart_own⟩, List.forall_mem_singleton.mpr rfl⟩,
    telemetryParts_own settings _⟩, List.forall_mem_cons.mpr ⟨rfl, List.forall_mem_singleton.mpr rfl⟩⟩

theorem clusterParts_own : OwnFrom [] (clusterParts settings site cluster answer) :=
  ownFrom_middle (firstParts_own settings cluster) (domainParts_own settings cluster)
    (lastParts_own settings site cluster answer)

theorem filter_domainParts : (domainParts settings cluster).filter (fun part =>
    object part.operation ∉ defaultsProvisionedByStalwart) = domainParts settings cluster := by
  have kept : ∀ type ∈ ["DnsServer", "AcmeProvider", "Domain", "SystemSettings"],
      decide (type ∉ defaultsProvisionedByStalwart) = true := by decide
  simp only [List.forall_mem_cons] at kept
  obtain ⟨dns, acme, domain, system, -⟩ := kept
  refine List.filter_eq_self.mpr ?_
  simp only [domainParts, List.forall_mem_append, List.forall_mem_cons]
  refine ⟨fun part there => ?_, acme, domain, system, List.forall_mem_nil _⟩
  obtain ⟨dnsServer, -, rfl⟩ := Option.map_eq_some_iff.mp (Option.mem_toList.mp there)
  exact dns

theorem recoveryParts_own : OwnFrom [] (recoveryParts settings site cluster answer) := by
  rw [recoveryParts, clusterParts, List.filter_append, List.filter_append, filter_domainParts, List.append_assoc]
  refine ownFrom_middle (fun part there => ?_) (domainParts_own settings cluster)
    (List.forall_mem_append.mpr ⟨fun part there => ?_, List.forall_mem_singleton.mpr rfl⟩)
  · exact firstParts_own settings cluster part (List.mem_filter.mp there).1
  · exact lastParts_own settings site cluster answer part (List.mem_filter.mp there).1

theorem gatewayParts_own : OwnFrom [] (gatewayParts settings cluster gateway) :=
  ownFrom_middle (List.forall_mem_singleton.mpr rfl) (gatewayDomainParts_own settings cluster gateway)
    (gatewayLastParts_own settings gateway)

theorem gatewayRecoveryParts_own : OwnFrom [] (gatewayRecoveryParts settings cluster gateway) :=
  ownFrom_append.mpr ⟨gatewayParts_own settings cluster gateway,
    ownFrom_of_nil (List.forall_mem_singleton.mpr rfl)⟩

/-! ## Labels -/

theorem nodup_append_alike {start : String} {labels others : List String} (distinct : labels.Nodup)
    (alike : ∀ label ∈ labels, start.toList <+: label.toList) (once : others.Nodup)
    (differ : ∀ label ∈ others, ¬ start.toList <+: label.toList) : (labels ++ others).Nodup := by
  refine List.nodup_append.mpr ⟨distinct, once, fun label there other among same => ?_⟩
  exact differ other among (same ▸ alike label there)

/-- The label of the DNS server. -/
def dnsLabels (cluster : StalwartCluster) : List String :=
  if (stalwartDnsServer cluster.dnsZone).isSome then ["dns"] else []

theorem planLabels_dnsServer :
    planLabels ((stalwartDnsServer cluster.dnsZone).map dnsServerOperation).toList = dnsLabels cluster := by
  rw [dnsLabels]
  cases stalwartDnsServer cluster.dnsZone <;> rfl

theorem planLabels_spamSettings : planLabels (spamSettingsOperations settings) = [] := by
  rw [spamSettingsOperations]
  cases given settings.spamFilterRulesVersion <;> rfl

theorem labels_egressOperations : (planLabels (egressOperations site cluster answer)).Nodup ∧
    ∀ label ∈ planLabels (egressOperations site cluster answer), "egress-".toList <+: label.toList := by
  rw [egressOperations, Routes.clusterOperations]
  split
  · exact ⟨List.nodup_nil, List.forall_mem_nil _⟩
  · have labels : ∀ (routes : Dict String Routes.Relay) (route : Routes.Expression),
        planLabels ([.upsertRoutes routes, .updateStrategy route].map routeOperation) = routes.keys := by
      intro routes route
      simp [planLabels, routeOperation, Operation.labels, Dict.keys]
    rw [labels]
    refine ⟨Dict.nodup_keys_ofList, fun label there => ?_⟩
    rw [Dict.mem_keys_ofList, List.map_map] at there
    obtain ⟨pool, -, rfl⟩ := List.mem_map.mp there
    rw [Function.comp_apply, Routes.relayName, String.toList_append]
    exact List.prefix_append _ _

/-- The labels of a cluster's plan beside those of its routes. -/
def clusterLabels (cluster : StalwartCluster) : List String :=
  ["full", "frontend", "outbound", "log", "journal", "telemetry-events", "telemetry-errors", "telemetry-warnings"] ++
    dnsLabels cluster ++ ["acme", "default", "disabled"]

theorem planLabels_clusterPlan : planLabels (clusterPlan settings site cluster answer) =
    clusterLabels cluster ++ planLabels (egressOperations site cluster answer) ++
      ["sending-limits", "quota-backstop", "outbound-scan"] := by
  simp only [clusterPlan, defaultsPlan, List.cons_append, planLabels, List.flatMap_cons, List.flatMap_append]
  have dns := planLabels_dnsServer cluster
  have spam := planLabels_spamSettings settings
  rw [planLabels] at dns spam
  rw [dns, spam, clusterLabels]
  simp only [List.append_assoc]
  rfl

/-- **No label of a cluster's plan is used twice**, nor is that of the administrator among them. -/
theorem nodup_clusterPlan : (planLabels (clusterPlan settings site cluster answer) ++ ["admin"]).Nodup := by
  have moved : (planLabels (egressOperations site cluster answer) ++ (clusterLabels cluster ++
      ["sending-limits", "quota-backstop", "outbound-scan", "admin"])).Perm
      (planLabels (clusterPlan settings site cluster answer) ++ ["admin"]) := by
    rw [planLabels_clusterPlan, ← List.append_assoc, List.append_assoc _ _ ["admin"]]
    exact List.perm_append_comm.append_right _
  obtain ⟨distinct, alike⟩ := labels_egressOperations site cluster answer
  refine (nodup_append_alike distinct alike ?_ ?_).perm moved
  · rw [clusterLabels, dnsLabels]
    cases (stalwartDnsServer cluster.dnsZone).isSome <;> decide
  · rw [clusterLabels, dnsLabels]
    cases (stalwartDnsServer cluster.dnsZone).isSome <;> decide

theorem nodup_recoveryPlan : (planLabels (recoveryPlan settings site cluster answer)).Nodup := by
  rw [recoveryPlan, planLabels_append]
  refine (nodup_clusterPlan settings site cluster answer).sublist (List.Sublist.append ?_ (List.Sublist.refl _))
  exact List.filter_sublist.flatMap _

/-- The labels of a gateway's plan beside those of its pools. -/
def gatewayLabels (cluster : StalwartCluster) : List String :=
  dnsLabels cluster ++ ["acme", "gateway", "relay", "gateway-role", "log", "journal", "telemetry-events",
    "telemetry-errors", "telemetry-warnings", "admin"]

theorem poolName_begins (pool : EgressIPPool) : "p".toList <+: pool.poolName.toList := by
  obtain ⟨n, named⟩ := pool.numbered
  rw [named, String.toList_append]
  exact List.prefix_append _ _

theorem keys_listeners {label : String} (there : label ∈ Dict.keys (listeners gateway)) :
    "relay-".toList <+: label.toList := by
  rw [listeners, Dict.mem_keys_ofList, List.map_map] at there
  obtain ⟨pool, -, rfl⟩ := List.mem_map.mp there
  rw [Function.comp_apply, listenerName, String.toList_append]
  exact List.prefix_append _ _

theorem keys_strategies {label : String} (there : label ∈ Dict.keys (strategies gateway)) :
    "p".toList <+: label.toList := by
  rw [strategies, Dict.mem_keys_ofList, List.map_map] at there
  obtain ⟨pool, -, rfl⟩ := List.mem_map.mp there
  exact poolName_begins pool

theorem planLabels_poolOperations : planLabels (poolOperations gateway) =
    Dict.keys (listeners gateway) ++ if listeners gateway = [] then [] else Dict.keys (strategies gateway) := by
  rw [poolOperations]
  split
  · rename_i none
    rw [none]
    rfl
  · simp [planLabels, Operation.labels, Dict.keys]

theorem planLabels_gatewayPlan : planLabels (gatewayPlan settings cluster gateway) =
    dnsLabels cluster ++ ["acme", "gateway", "relay"] ++ planLabels (poolOperations gateway) ++
      ["gateway-role", "log", "journal", "telemetry-events", "telemetry-errors", "telemetry-warnings"] := by
  simp only [gatewayPlan, gatewayDefaultsPlan, List.cons_append, planLabels, List.flatMap_cons,
    List.flatMap_append]
  have dns := planLabels_dnsServer cluster
  have spam := planLabels_spamSettings settings
  rw [planLabels] at dns spam
  rw [dns, spam]
  simp only [List.append_assoc]
  rfl

/-- **No label of a gateway's plan is used twice**, nor is that of the administrator among them. -/
theorem nodup_gatewayPlan : (planLabels (gatewayPlan settings cluster gateway) ++ ["admin"]).Nodup := by
  have fixed : (gatewayLabels cluster).Nodup ∧ (∀ label ∈ gatewayLabels cluster, ¬ "p".toList <+: label.toList) ∧
      ∀ label ∈ gatewayLabels cluster, ¬ "relay-".toList <+: label.toList := by
    rw [gatewayLabels, dnsLabels]
    cases (stalwartDnsServer cluster.dnsZone).isSome <;> decide
  obtain ⟨once, notPool, notListener⟩ := fixed
  have strategyLabels : (if listeners gateway = [] then [] else Dict.keys (strategies gateway)).Nodup ∧
      ∀ label ∈ (if listeners gateway = [] then [] else Dict.keys (strategies gateway)),
        "p".toList <+: label.toList := by
    split
    · exact ⟨List.nodup_nil, List.forall_mem_nil _⟩
    · exact ⟨Dict.nodup_keys_ofList, fun label there => keys_strategies gateway there⟩
  have pools := planLabels_poolOperations gateway
  generalize (if listeners gateway = [] then [] else Dict.keys (strategies gateway)) = names at strategyLabels pools
  have moved : (Dict.keys (listeners gateway) ++ (names ++ gatewayLabels cluster)).Perm
      (planLabels (gatewayPlan settings cluster gateway) ++ ["admin"]) := by
    have order : gatewayLabels cluster = dnsLabels cluster ++ ["acme", "gateway", "relay"] ++
        (["gateway-role", "log", "journal", "telemetry-events", "telemetry-errors", "telemetry-warnings"] ++
          ["admin"]) := by
      rw [List.append_assoc]
      rfl
    rw [planLabels_gatewayPlan, pools, order, ← List.append_assoc, List.append_assoc (_ ++ _) _ ["admin"],
      List.append_assoc (dnsLabels cluster ++ _)]
    exact List.perm_append_comm_assoc _ _ _
  refine (nodup_append_alike Dict.nodup_keys_ofList (fun label there => keys_listeners gateway there)
    (nodup_append_alike strategyLabels.1 strategyLabels.2 once notPool) ?_).perm moved
  refine List.forall_mem_append.mpr ⟨fun label there listener => ?_, notListener⟩
  have both := List.prefix_of_prefix_length_le (strategyLabels.2 label there) listener (by decide)
  exact absurd both (by decide)

theorem nodup_gatewayRecoveryPlan : (planLabels (gatewayRecoveryPlan settings cluster gateway)).Nodup := by
  rw [gatewayRecoveryPlan, planLabels_append]
  exact nodup_gatewayPlan settings cluster gateway

end Plans

/-! ## The plans are well formed -/

theorem wellFormed_parts {parts : List Part} {plan : List Operation} (same : parts.map Part.operation = plan)
    (unique : (planLabels plan).Nodup) (carries : ∀ part ∈ parts, part.Carries) (own : OwnFrom [] parts) :
    WellFormed plan ↔ SuppliedFrom [] parts := by
  rw [wellFormed_iff, and_iff_right unique, ← same, knownFrom_iff carries, and_iff_right own]

/-- **A plan is well formed exactly where its texts are supplied**: whatever the settings and documents are, no
label is used twice and every reference that the operations are written with is to an operation before, so
that the plan is well formed if and only if each configured text that begins with `#` names a label of an
operation before. -/
theorem plans_wellFormed_iff (settings : Settings) (site : Routes.Site) (cluster : StalwartCluster)
    (answer : Option (Option Routes.Expression)) (gateway : EgressGateway) :
    (WellFormed (clusterPlan settings site cluster answer) ↔
      SuppliedFrom [] (clusterParts settings site cluster answer)) ∧
    (WellFormed (recoveryPlan settings site cluster answer) ↔
      SuppliedFrom [] (recoveryParts settings site cluster answer)) ∧
    (WellFormed (gatewayPlan settings cluster gateway) ↔
      SuppliedFrom [] (gatewayParts settings cluster gateway)) ∧
    (WellFormed (gatewayRecoveryPlan settings cluster gateway) ↔
      SuppliedFrom [] (gatewayRecoveryParts settings cluster gateway)) := by
  refine ⟨?_, ?_, ?_, ?_⟩
  · exact wellFormed_parts (map_clusterParts ..) (nodup_clusterPlan settings site cluster answer).of_append_left
      (clusterParts_carry settings site cluster answer) (clusterParts_own ..)
  · exact wellFormed_parts (map_recoveryParts ..) (nodup_recoveryPlan ..)
      (recoveryParts_carry settings site cluster answer) (recoveryParts_own ..)
  · exact wellFormed_parts (map_gatewayParts ..) (nodup_gatewayPlan settings cluster gateway).of_append_left
      (gatewayParts_carry settings cluster gateway) (gatewayParts_own ..)
  · exact wellFormed_parts (map_gatewayRecoveryParts ..) (nodup_gatewayRecoveryPlan ..)
      (gatewayRecoveryParts_carry settings cluster gateway) (gatewayRecoveryParts_own ..)

/-! ### A contact -/

def plainSettings : Settings where
  acmeContactEmail := none
  acmeDirectoryUrl := some "https://acme-v02.api.letsencrypt.org/directory"
  spamFilterRulesVersion := none
  publicUrl := none
  siteUrl := "https://suite.example.com"
  webhookDiscardAfterMinutes := 10
  metricsPushIntervalSeconds := 60
  signWithEd25519 := true
  enableTelemetry := false
  outboundScanMode := "Off"

/-- A cluster whose contact begins with `#`, as an address may. -/
def contactCluster : StalwartCluster where
  toStalwartCluster := Routes.activeCluster
  coordinator := none
  hostname := "bom.frappemail.com"
  defaultDomain := "bom.frappemail.com"
  dnsZone := ⟨"frappemail.com", none⟩
  acmeContactEmail := some "#ops@frappemail.com"
  acmeDirectoryUrl := none
  maxDailySendLimit := 1000
  adminUsername := some "admin"
  adminPassword := "secret"
  hasEveryToken := false
  hasEveryScanner := false

/-- **A contact that is taken for a label** of no operation. -/
theorem unescaped_contact : ¬ WellFormed (clusterPlan plainSettings Routes.bareSite contactCluster none) := by
  intro well
  obtain ⟨after, split⟩ : ∃ after, clusterPlan plainSettings Routes.bareSite contactCluster none =
      (coordinatorOperation "Disabled" :: defaultsPlan plainSettings ++ [tracerOperation] ++
        telemetryOperations plainSettings false) ++ acmeOperation plainSettings contactCluster :: after :=
    ⟨_, rfl⟩
  have known := well.known
  rw [split] at known
  have contact : "ops@frappemail.com" ∈ (acmeOperation plainSettings contactCluster).references := by
    decide
  have named := (knownFrom_append.mp known).2.1 "ops@frappemail.com" contact
  exact absurd named (by decide)

end SuiteCloud.Mail.Cluster.Plan
