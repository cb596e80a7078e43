/-
**The plans of a cluster and of a gateway.**

`suite_cloud/mail/cluster/plan.py` with `telemetry.py`, `quota.py` and `outbound_scan.py` beside it, and the
gateway side of `egress.py`: the operations that are generated from the documents and the settings, each with
all it sends.

* `clusterPlan`, `recoveryPlan`, `defaultsPlan`.
* `gatewayPlan`, `gatewayRecoveryPlan`, `gatewayDefaultsPlan`.
-/

import SuiteCloud.Mail.Cluster.Routes
import SuiteCloud.Mail.Stalwart.Plan

namespace SuiteCloud.Mail.Cluster.Plan

open SuiteCloud.Library
open SuiteCloud.Mail.Stalwart (Value Members Operation)

/-! ## The documents -/

/-- What `get_config` gives. -/
structure Settings where
  acmeContactEmail : Option String
  acmeDirectoryUrl : Option String
  spamFilterRulesVersion : Option String
  publicUrl : Option String
  /-- `get_url()`. -/
  siteUrl : String
  webhookDiscardAfterMinutes : ℤ
  metricsPushIntervalSeconds : ℤ
  signWithEd25519 : Bool
  enableTelemetry : Bool
  outboundScanMode : String

/-- `dns_provider`, with the fields that are read for it. -/
inductive DnsProvider
  | cloudflare (token : Option String)
  | amazonRoute53 (accessKey accessSecret : Option String)
  | digitalOcean (token : Option String)
  | hetzner (token : Option String)
  | linode (token : Option String)
  | namecheap (username token clientIp : Option String)
  | goDaddy (key secret : Option String)

structure DnsZone where
  domainName : String
  dnsProvider : Option DnsProvider

structure StalwartCluster extends Routes.StalwartCluster where
  coordinator : Option String
  hostname : String
  defaultDomain : String
  dnsZone : DnsZone
  acmeContactEmail : Option String
  acmeDirectoryUrl : Option String
  maxDailySendLimit : ℤ
  adminUsername : Option String
  adminPassword : String
  /-- `server_token.has_every_token`. -/
  hasEveryToken : Bool
  /-- `rspamd.has_every_scanner`. -/
  hasEveryScanner : Bool

/-- An address row of a pool. -/
structure PoolAddress where
  gateway : String
  ipAddress : String
  ehloHostname : String

/-- A pool; `autoname` gives it its `pool_name`. -/
structure EgressIPPool where
  poolName : String
  numbered : ∃ n : ℕ, poolName = "p" ++ toString n
  relayPort : ℕ
  addresses : List PoolAddress

structure EgressGateway where
  name : String
  hostname : String
  adminUsername : Option String
  adminPassword : String
  /-- `server_token.has_every_token`. -/
  hasEveryToken : Bool
  /-- `pools()`. -/
  pools : List EgressIPPool

/-! ## Values -/

/-- A text, or `None`. -/
def ofText : Option String → Value
  | some text => .text text
  | none => .null

def ofBool (b : Bool) : Value := .num (if b then 1 else 0)

/-- A text that is not empty. -/
def given (text : Option String) : Option String := text.filter (· ≠ "")

/-- `as_set`. -/
def asSet (values : List String) : Value := .dict (Dict.ofList (values.map fun value => (value, .num 1)))

/-- `as_list`. -/
def asList (items : List Value) : Value := .dict (items.zipIdx.map fun item => (toString item.2, item.1))

/-- An object of a variant without properties. -/
def variant (name : String) : Value := .dict [("@type", .text name)]

/-- `secret_value`. -/
def secretValue (secret : Option String) : Value :=
  match given secret with
  | some secret => .dict [("@type", .text "Value"), ("secret", .text secret)]
  | none => .null

/-! ## Parts of both plans -/

/-- `log_tracer("info")`. -/
def logTracer : Members :=
  [("@type", .text "Log"), ("path", .text "/var/log/stalwart"), ("prefix", .text "stalwart"),
    ("rotate", .text "daily"), ("ansi", ofBool false), ("multiline", ofBool false), ("enable", ofBool true),
    ("level", .text "info"), ("lossy", ofBool false), ("events", .dict []), ("eventsPolicy", .text "exclude")]

def journalTracer : Members :=
  [("@type", .text "Journal"), ("enable", ofBool true), ("level", .text "warn"), ("lossy", ofBool false),
    ("events", .dict []), ("eventsPolicy", .text "exclude")]

/-- `tracer_operation`. -/
def tracerOperation : Operation :=
  .upsert "Tracer" ["@type"] [("log", logTracer), ("journal", journalTracer)]

def localServer (protocol : String) : Value :=
  .dict [("address", .text "127.0.0.1"), ("port", .num 53), ("protocol", .text protocol)]

/-- `dns_resolver_operation`. -/
def dnsResolverOperation : Operation :=
  .update "DnsResolver" ""
    [("@type", .text "Custom"), ("servers", asList [localServer "udp", localServer "tcp"])]

/-- `SPAM_RULES_URL`. -/
def spamRulesUrl (version : String) : String :=
  "https://github.com/stalwartlabs/spam-filter/releases/download/" ++ version ++ "/spam-filter-rules.json.gz"

/-- `spam_settings_operations`. -/
def spamSettingsOperations (settings : Settings) : List Operation :=
  match given settings.spamFilterRulesVersion with
  | some version => [.update "SpamSettings" "" [("spamFilterRulesUrl", .text (spamRulesUrl version))]]
  | none => []

/-- `CLUSTER_ROLES`. -/
def clusterRoles : List (String × Members) :=
  [("full", [("name", .text "full"), ("description", .text "All tasks and listeners"),
      ("tasks", variant "EnableAll"), ("listeners", variant "EnableAll")]),
    ("frontend", [("name", .text "frontend"),
      ("description", .text "Serves clients, never delivers the outbound queue"),
      ("tasks", .dict [("@type", .text "DisableSome"), ("taskTypes", asSet ["outboundMta"])]),
      ("listeners", variant "EnableAll")]),
    ("outbound", [("name", .text "outbound"), ("description", .text "Delivers the outbound queue only"),
      ("tasks", .dict [("@type", .text "EnableSome"),
        ("taskTypes", asSet ["outboundMta", "taskQueueProcessing", "metricsPush"])]),
      ("listeners", variant "DisableAll")])]

/-- **`defaults_plan`.** -/
def defaultsPlan (settings : Settings) : List Operation :=
  .upsert "ClusterRole" ["name"] clusterRoles :: dnsResolverOperation :: spamSettingsOperations settings

/-! ### Telemetry -/

/-- `WEBHOOK_EVENTS`. -/
def webhookEvents : List String :=
  ["auth.success", "dane.authentication-failure", "dane.tlsa-record-fetch-error", "delivery.connect",
    "delivery.connect-error", "delivery.delivered", "delivery.double-bounce", "delivery.dsn-perm-fail",
    "delivery.dsn-temp-fail", "delivery.ehlo-rejected", "delivery.failed", "delivery.greeting-failed",
    "delivery.ip-lookup-failed", "delivery.mail-from-rejected", "delivery.message-rejected",
    "delivery.mx-lookup-failed", "delivery.null-mx", "delivery.rcpt-to-rejected", "delivery.start-tls",
    "delivery.start-tls-error", "delivery.start-tls-unavailable", "message-ingest.ham",
    "message-ingest.spam", "milter.action-accept", "milter.action-discard", "milter.action-reject",
    "milter.action-reply-code", "milter.action-temp-fail", "mta-sts.invalid-policy",
    "mta-sts.not-authorized", "mta-sts.policy-fetch-error", "queue.rescheduled", "security.abuse-ban",
    "security.authentication-ban", "security.ip-blocked", "security.loiter-ban", "security.scan-ban",
    "server.startup", "smtp.auth-mechanism-not-supported", "smtp.auth-not-allowed", "smtp.dkim-fail",
    "smtp.dkim-pass", "smtp.dmarc-fail", "smtp.dmarc-pass", "smtp.ehlo", "smtp.invalid-ehlo",
    "smtp.iprev-fail", "smtp.iprev-pass", "smtp.mail-from", "smtp.mailbox-does-not-exist",
    "smtp.rate-limit-exceeded", "smtp.relay-not-allowed", "smtp.spf-ehlo-fail", "smtp.spf-ehlo-pass",
    "smtp.spf-from-fail", "smtp.spf-from-pass", "smtp.too-many-messages", "smtp.too-many-recipients",
    "tls-rpt.record-fetch-error", "delivery.ip-lookup", "delivery.mx-lookup", "auth.too-many-attempts",
    "smtp.id-not-found", "auth.error", "server.startup-error"]

/-- `ERROR_EVENTS`. -/
def errorEvents : List String :=
  ["acme.error", "cluster.message-invalid", "cluster.publisher-error", "cluster.subscriber-error",
    "dkim.build-error", "dns.build-error", "message-ingest.error", "network.bind-error",
    "network.listen-error", "network.set-opt-error", "network.split-error", "registry.build-error",
    "registry.deserialization-error", "registry.local-parse-error", "registry.local-read-error",
    "registry.local-write-error", "registry.read-error", "registry.validation-error",
    "registry.write-error", "resource.bad-parameters", "resource.error", "server.thread-error",
    "sieve.unexpected-error", "store.assert-value-failed", "store.azure-error", "store.crypto-error",
    "store.data-corruption", "store.decompress-error", "store.deserialize-error",
    "store.elasticsearch-error", "store.filesystem-error", "store.foundationdb-error", "store.ldap-error",
    "store.meilisearch-error", "store.mysql-error", "store.not-configured", "store.not-supported",
    "store.pool-error", "store.postgresql-error", "store.redis-error", "store.rocksdb-error",
    "store.s3-error", "store.sqlite-error", "store.unexpected-error", "tls.not-configured"]

/-- `WARN_EVENTS`. -/
def warnEvents : List String :=
  ["acme.auth-error", "acme.auth-too-many-attempts", "acme.order-invalid", "acme.tls-alpn-error",
    "acme.token-not-found", "ai.api-error", "arc.sealer-not-found", "calendar.alarm-failed",
    "cluster.subscriber-disconnected", "delivery.concurrency-limit-exceeded",
    "delivery.missing-outbound-hostname", "delivery.rate-limit-exceeded", "dkim.signer-not-found",
    "dns.record-creation-failed", "dns.record-propagation-timeout", "eval.directory-not-found",
    "http.x-forwarded-missing", "incoming-report.dmarc-report-with-warnings",
    "incoming-report.tls-report-with-warnings", "limit.concurrent-connection", "limit.too-many-requests",
    "milter.disconnected", "milter.frame-invalid", "milter.frame-too-large", "milter.io-error",
    "milter.parse-error", "milter.timeout", "milter.tls-invalid-name", "milter.unexpected-response",
    "mta-hook.error", "network.proxy-error", "queue.back-pressure", "registry.build-warning",
    "server.bootstrap-mode", "server.recovery-mode", "sieve.list-not-found", "sieve.message-too-large",
    "sieve.not-supported", "sieve.quota-exceeded", "sieve.script-not-found", "smtp.missing-local-hostname",
    "spam.train-sample-not-found", "store.blob-missing-marker", "store.cache-entry-too-large",
    "store.http-store-error", "task-manager.task-failed", "telemetry.alert-event",
    "telemetry.journal-error", "telemetry.log-error", "telemetry.otel-exporter-error",
    "telemetry.otel-metrics-exporter-error", "telemetry.prometheus-exporter-error",
    "tls.multiple-certificates-available", "tls.no-certificates-available"]

/-- `public_url`. -/
def publicUrl (settings : Settings) : String := (given settings.publicUrl).getD settings.siteUrl

/-- `api_url`. -/
def apiUrl (settings : Settings) (method : String) : String :=
  publicUrl settings ++ "/api/v2/method/suite_cloud.api.telemetry." ++ method

/-- `bearer_auth`. -/
def bearerAuth : Value :=
  .dict [("@type", .text "Bearer"),
    ("bearerToken",
      .dict [("@type", .text "EnvironmentVariable"), ("variableName", .text "SUITE_CLOUD_TOKEN")])]

/-- A number, or the default where it is 0. -/
def orDefault (number default : ℤ) : ℤ := if number = 0 then default else number

/-- The URL of a stream's WebHook. -/
def webhookUrl (settings : Settings) (stream : String) : String :=
  apiUrl settings "webhook" ++ "?stream=" ++ stream

/-- `webhook`. -/
def webhook (settings : Settings) (stream level : String) (events : List String) (enabled : Bool) : Members :=
  [("enable", ofBool enabled), ("url", .text (webhookUrl settings stream)), ("level", .text level),
    ("events", asSet events), ("eventsPolicy", .text "include"), ("httpAuth", bearerAuth),
    ("httpHeaders", .dict [("X-Suite-Cloud-Stream", .text stream)]), ("signatureKey", variant "None"),
    ("throttle", .num 30000), ("timeout", .num 30000),
    ("discardAfter", .num (orDefault settings.webhookDiscardAfterMinutes 10 * 60000)),
    ("lossy", ofBool false), ("allowInvalidCerts", ofBool false)]

/-- `otlp_exporter`. -/
def otlpExporter (settings : Settings) : Value :=
  .dict [("@type", .text "Http"), ("endpoint", .text (apiUrl settings "otlp")),
    ("interval", .num (orDefault settings.metricsPushIntervalSeconds 60 * 1000)), ("timeout", .num 10000),
    ("httpAuth", bearerAuth), ("httpHeaders", .dict [])]

/-- `is_push_enabled`. -/
def isPushEnabled (settings : Settings) (hasEveryToken : Bool) : Bool :=
  settings.enableTelemetry && hasEveryToken

def webhookOperation (settings : Settings) (enabled : Bool) : Operation :=
  .upsert "WebHook" ["httpHeaders"]
    [("telemetry-events", webhook settings "events" "info" webhookEvents enabled),
      ("telemetry-errors", webhook settings "errors" "error" errorEvents enabled),
      ("telemetry-warnings", webhook settings "warnings" "warn" warnEvents enabled)]

def metricsOperation (settings : Settings) (enabled : Bool) : Operation :=
  .update "Metrics" "" [("openTelemetry", if enabled then otlpExporter settings else variant "Disabled"),
    ("prometheus", variant "Disabled")]

/-- **`telemetry.get_operations`.** -/
def telemetryOperations (settings : Settings) (hasEveryToken : Bool) : List Operation :=
  [webhookOperation settings (isPushEnabled settings hasEveryToken),
    metricsOperation settings (isPushEnabled settings hasEveryToken)]

/-! ### Certificates and the domain -/

def dnsServerBase (zone : DnsZone) (type : String) : Members :=
  [("description", .text ("suite-cloud-" ++ zone.domainName)), ("ttl", .num 300000), ("@type", .text type)]

/-- **`stalwart_dns_server`.** -/
def stalwartDnsServer (zone : DnsZone) : Option Members :=
  zone.dnsProvider.map fun
    | .cloudflare token => dnsServerBase zone "Cloudflare" ++ [("secret", secretValue token)]
    | .amazonRoute53 accessKey accessSecret => dnsServerBase zone "Route53" ++
        [("accessKeyId", ofText accessKey), ("secretAccessKey", secretValue accessSecret),
          ("region", .text "us-east-1")]
    | .digitalOcean token => dnsServerBase zone "DigitalOcean" ++ [("secret", secretValue token)]
    | .hetzner token => dnsServerBase zone "Hetzner" ++ [("secret", secretValue token)]
    | .linode token => dnsServerBase zone "Linode" ++ [("secret", secretValue token)]
    | .namecheap username token clientIp => dnsServerBase zone "Namecheap" ++
        [("username", ofText username), ("apiKey", secretValue token), ("clientIp", ofText clientIp)]
    | .goDaddy key secret => dnsServerBase zone "GoDaddy" ++
        [("apiKey", ofText key), ("secret", secretValue secret)]

def dnsServerOperation (dnsServer : Members) : Operation :=
  .upsert "DnsServer" ["description"] [("dns", dnsServer)]

/-- The contact that is given to the certificate authority. -/
def acmeContact (settings : Settings) (cluster : StalwartCluster) : Option String :=
  given ((given cluster.acmeContactEmail).or settings.acmeContactEmail)

def acmeDirectory (settings : Settings) (cluster : StalwartCluster) : Option String :=
  (given cluster.acmeDirectoryUrl).or settings.acmeDirectoryUrl

/-- **`acme_provider`.** -/
def acmeProvider (settings : Settings) (cluster : StalwartCluster) : Members :=
  [("directory", ofText (acmeDirectory settings cluster)), ("challengeType", .text "Dns01")] ++
    match acmeContact settings cluster with
    | some contact => [("contact", .dict [(contact, ofBool true)])]
    | none => []

def acmeOperation (settings : Settings) (cluster : StalwartCluster) : Operation :=
  .upsert "AcmeProvider" ["directory"] [("acme", acmeProvider settings cluster)]

/-- `dkim_algorithms`. -/
def dkimAlgorithms (settings : Settings) : List String :=
  if settings.signWithEd25519 then ["Dkim1Ed25519Sha256", "Dkim1RsaSha256"] else ["Dkim1RsaSha256"]

/-- `DAY_MS`. -/
def dayMs : ℤ := 86400000

/-- `dkim_management_payload`. -/
def dkimManagementPayload (algorithms : List String) : Value :=
  if algorithms = [] then variant "Manual"
  else .dict [("@type", .text "Automatic"), ("algorithms", asSet algorithms),
    ("selectorTemplate", .text "frappemail-\x7balgorithm\x7d"), ("rotateAfter", .num (100 * 365 * dayMs)),
    ("retireAfter", .num (7 * dayMs)), ("deleteAfter", .num (30 * dayMs))]

/-- `PUBLISHED_RECORD_TYPES`. -/
def publishedRecordTypes : Value := .dict [("mx", ofBool true), ("dkim", ofBool true), ("dmarc", ofBool true)]

def certificateManagement (subjectAlternativeNames : List String) : Value :=
  .dict [("@type", .text "Automatic"), ("acmeProviderId", .text "#acme"),
    ("subjectAlternativeNames", asSet subjectAlternativeNames)]

/-- `dnsManagement`; a cluster's zone is called by its domain. -/
def dnsManagement (cluster : StalwartCluster) (withDns : Bool) : Value :=
  if withDns then
    .dict [("@type", .text "Automatic"), ("dnsServerId", .text "#dns"),
      ("origin", .text cluster.dnsZone.domainName), ("publishRecords", publishedRecordTypes)]
  else variant "Manual"

/-- `default_domain`. -/
def defaultDomain (settings : Settings) (cluster : StalwartCluster) (withDns : Bool) : Members :=
  [("name", .text cluster.defaultDomain), ("description", .text "Cluster default domain"),
    ("isEnabled", ofBool true),
    ("certificateManagement", certificateManagement [cluster.defaultDomain, "*." ++ cluster.defaultDomain]),
    ("dkimManagement", dkimManagementPayload (dkimAlgorithms settings)),
    ("subAddressing", variant "Disabled"), ("dnsManagement", dnsManagement cluster withDns)]

def domainOperation (settings : Settings) (cluster : StalwartCluster) (withDns : Bool) : Operation :=
  .upsert "Domain" ["name"] [("default", defaultDomain settings cluster withDns)]

def systemSettings (hostname domain mailExchanger : String) : Members :=
  [("defaultHostname", .text hostname), ("defaultDomainId", .text domain),
    ("mailExchangers", asList [.dict [("hostname", .text mailExchanger), ("priority", .num 10)]])]

/-- `admin_account_operation`. -/
def adminAccountOperation (adminUsername : Option String) (adminPassword : String) : Operation :=
  .upsert "Account" ["name"]
    [("admin", [("@type", .text "User"), ("name", .text ((given adminUsername).getD "admin")),
      ("credentials", .dict [("0", .dict [("@type", .text "Password"), ("secret", .text adminPassword)])])])]

/-! ## The cluster -/

def disabledRoleOperation : Operation :=
  .upsert "Role" ["description"]
    [("disabled", [("description", .text "suite-disabled"), ("roleIds", .dict []),
      ("enabledPermissions", .dict [("emailReceive", ofBool true)]), ("disabledPermissions", .dict [])])]

/-! ### Routes -/

/-- A Relay route as it is sent. -/
def relayMembers (name : String) (relay : Routes.Relay) : Members :=
  [("@type", .text "Relay"), ("name", .text name), ("description", .text relay.description),
    ("address", .text relay.address), ("port", .num relay.port), ("protocol", .text "smtp"),
    ("authUsername", .text relay.authUsername), ("authSecret", secretValue (some relay.authSecret)),
    ("implicitTls", ofBool false), ("allowInvalidCerts", ofBool false)]

def ruleValue (rule : Routes.Rule) : Value :=
  .dict (("if", .text rule.condition.text) ::
    match rule.target with
    | some target => [("then", .text target)]
    | none => [])

def expressionValue (expression : Routes.Expression) : Value :=
  .dict [("match", asList ((Routes.expressionRules expression).map ruleValue)),
    ("else", ofText expression.otherwise)]

def routeOperation : Routes.Operation → Operation
  | .upsertRoutes routes => .upsert "MtaRoute" ["name"]
      (routes.map fun entry => (entry.1, relayMembers entry.1 entry.2))
  | .updateStrategy route => .update "MtaOutboundStrategy" "" [("route", expressionValue route)]

/-- **`egress.cluster_operations`**; `answer` is what reading the strategy gives, unless it raises. -/
def egressOperations (site : Routes.Site) (cluster : StalwartCluster)
    (answer : Option (Option Routes.Expression)) : List Operation :=
  (Routes.clusterOperations site cluster.toStalwartCluster answer).map routeOperation

/-! ### Limits and scan -/

/-- A condition: the rule that makes it true, if there is one. -/
def condition (rules : List String) : Value :=
  .dict [("match", asList (rules.map fun rule => .dict [("if", .text rule), ("then", .text "true")])),
    ("else", .text "false")]

/-- `SIGNED_IN`. -/
def signedIn : Value := condition ["!is_empty(authenticated_as)"]

/-- `NEVER`. -/
def never : Value := condition []

/-- `SCANNED`. -/
def scanned : Value :=
  condition ["!is_empty(authenticated_as) && " ++
    "!key_exists('suite-cloud-outbound-scan-exempt', authenticated_as)"]

def hookUrl (settings : Settings) : String :=
  publicUrl settings ++ "/api/v2/method/suite_cloud.api.sending_limits.check"

/-- `hook_operation`. -/
def hookOperation (settings : Settings) (cluster : StalwartCluster) : Operation :=
  .upsert "MtaHook" ["httpHeaders"]
    [("sending-limits", [("enable", if cluster.hasEveryToken then signedIn else never),
      ("url", .text (hookUrl settings)), ("stages", asSet ["rcpt"]), ("timeout", .num 1000),
      ("tempFailOnError", ofBool false), ("httpAuth", bearerAuth),
      ("httpHeaders", .dict [("X-Suite-Cloud-Hook", .text "sending-limits")])])]

/-- `backstop_operation`. -/
def backstopOperation (cluster : StalwartCluster) : Operation :=
  .upsert "MtaInboundThrottle" ["description"]
    [("quota-backstop", [("enable", ofBool true), ("description", .text "suite-cloud-quota-backstop"),
      ("key", asSet ["authenticatedAs"]), ("match", signedIn),
      ("rate", .dict [("count", .num cluster.maxDailySendLimit), ("period", .num dayMs)])])]

/-- `is_scan_enabled`. -/
def isScanEnabled (settings : Settings) (cluster : StalwartCluster) : Bool :=
  decide (settings.outboundScanMode ≠ "Off") && cluster.hasEveryScanner

/-- `milter_operation`. -/
def milterOperation (settings : Settings) (cluster : StalwartCluster) : Operation :=
  .upsert "MtaMilter" ["hostname", "port"]
    [("outbound-scan", [("enable", if isScanEnabled settings cluster then scanned else never),
      ("hostname", .text "127.0.0.1"), ("port", .num 11332), ("stages", asSet ["data"]),
      ("tempFailOnError", ofBool false), ("timeoutConnect", .num 1000), ("timeoutCommand", .num 5000),
      ("timeoutData", .num 6000), ("protocolVersion", .text "v6"), ("useTls", ofBool false),
      ("maxResponseSize", .num 52428800)])]

/-! ### The plan -/

def coordinatorOperation (coordinator : String) : Operation :=
  .update "Coordinator" "" [("@type", .text coordinator)]

/-- **`cluster_plan`.** -/
def clusterPlan (settings : Settings) (site : Routes.Site) (cluster : StalwartCluster)
    (answer : Option (Option Routes.Expression)) : List Operation :=
  let dnsServer := stalwartDnsServer cluster.dnsZone
  coordinatorOperation ((given cluster.coordinator).getD "Disabled") :: defaultsPlan settings ++
    [tracerOperation] ++ telemetryOperations settings cluster.hasEveryToken ++
    (dnsServer.map dnsServerOperation).toList ++
    [acmeOperation settings cluster, domainOperation settings cluster dnsServer.isSome,
      .update "SystemSettings" "" (systemSettings cluster.hostname "#default" cluster.hostname),
      disabledRoleOperation] ++
    egressOperations site cluster answer ++ [hookOperation settings cluster, backstopOperation cluster] ++
    [milterOperation settings cluster]

/-- `operation["object"]`. -/
def object : Operation → String
  | .upsert type _ _ => type
  | .create type _ _ => type
  | .update type _ _ => type
  | .destroy type _ => type
  | .unsupported _ => ""

/-- `DEFAULTS_PROVISIONED_BY_STALWART`. -/
def defaultsProvisionedByStalwart : List String := ["Role", "MtaInboundThrottle"]

/-- **`recovery_plan`.** -/
def recoveryPlan (settings : Settings) (site : Routes.Site) (cluster : StalwartCluster)
    (answer : Option (Option Routes.Expression)) : List Operation :=
  ((clusterPlan settings site cluster answer).filter fun operation =>
      object operation ∉ defaultsProvisionedByStalwart) ++
    [adminAccountOperation cluster.adminUsername cluster.adminPassword]

/-! ## The gateway -/

/-- `addresses_on`. -/
def addressesOn (pool : EgressIPPool) (gateway : String) : List PoolAddress :=
  pool.addresses.filter (·.gateway = gateway)

/-- The pools that have an address on the gateway. -/
def hostedPools (gateway : EgressGateway) : List EgressIPPool :=
  gateway.pools.filter fun pool => addressesOn pool gateway.name ≠ []

def listenerName (pool : EgressIPPool) : String := "relay-" ++ pool.poolName

def listener (pool : EgressIPPool) : Members :=
  [("name", .text (listenerName pool)), ("protocol", .text "smtp"),
    ("bind", .dict [("0.0.0.0:" ++ toString pool.relayPort, ofBool true)]), ("useTls", ofBool true),
    ("tlsImplicit", ofBool false)]

def sourceIp (address : PoolAddress) : Value :=
  .dict [("sourceIp", .text address.ipAddress), ("ehloHostname", .text address.ehloHostname)]

def strategy (gateway : EgressGateway) (pool : EgressIPPool) : Members :=
  [("name", .text pool.poolName), ("description", .text ("Egress pool " ++ pool.poolName)),
    ("ehloHostname", .text gateway.hostname),
    ("sourceIps", asList ((addressesOn pool gateway.name).map sourceIp))]

/-- The rule that a pool's mail leaves by its strategy. -/
def connectionRule (pool : EgressIPPool) : Value :=
  .dict [("if", .text ("received_via_port == " ++ toString pool.relayPort)),
    ("then", .text ("'" ++ pool.poolName ++ "'"))]

/-- The rule that lifts the sender check. -/
def senderRule (pool : EgressIPPool) : Value :=
  .dict [("if", .text ("local_port == " ++ toString pool.relayPort)), ("then", .text "false")]

def listeners (gateway : EgressGateway) : List (String × Members) :=
  Dict.ofList ((hostedPools gateway).map fun pool => (listenerName pool, listener pool))

def strategies (gateway : EgressGateway) : List (String × Members) :=
  Dict.ofList ((hostedPools gateway).map fun pool => (pool.poolName, strategy gateway pool))

def gatewayDomain (settings : Settings) (cluster : StalwartCluster) (gateway : EgressGateway)
    (withDns : Bool) : Members :=
  [("name", .text gateway.hostname), ("description", .text "Gateway domain"), ("isEnabled", ofBool true),
    ("certificateManagement", certificateManagement ["*." ++ ("out." ++ cluster.defaultDomain)]),
    ("dkimManagement", dkimManagementPayload (dkimAlgorithms settings)),
    ("dnsManagement", dnsManagement cluster withDns), ("subAddressing", variant "Disabled")]

def gatewayDomainOperation (settings : Settings) (cluster : StalwartCluster) (gateway : EgressGateway)
    (withDns : Bool) : Operation :=
  .upsert "Domain" ["name"] [("gateway", gatewayDomain settings cluster gateway withDns)]

/-- The login of the cluster. -/
def relayUsername (cluster : StalwartCluster) : String := (given cluster.relayUsername).getD "relay"

def relayAccountOperation (cluster : StalwartCluster) : Operation :=
  .upsert "Account" ["name", "domainId"]
    [("relay", [("@type", .text "User"), ("name", .text (relayUsername cluster)),
      ("domainId", .text "#gateway"), ("description", .text "Cluster relay login"),
      ("credentials",
        .dict [("0", .dict [("@type", .text "Password"), ("secret", .text cluster.relayPassword)])]),
      ("roles", variant "User"), ("permissions", variant "Inherit"), ("quotas", .dict []),
      ("aliases", .dict []), ("memberGroupIds", .dict []), ("locale", .text "en-US"),
      ("encryptionAtRest", variant "Disabled")])]

/-- The listeners and strategies of the pools, where there are any. -/
def poolOperations (gateway : EgressGateway) : List Operation :=
  if listeners gateway = [] then []
  else [.upsert "NetworkListener" ["name"] (listeners gateway),
    .upsert "MtaConnectionStrategy" ["name"] (strategies gateway)]

/-- **`gateway_defaults_plan`.** -/
def gatewayDefaultsPlan (settings : Settings) : List Operation :=
  .upsert "ClusterRole" ["name"]
    [("gateway-role", [("name", .text "egress"), ("description", .text "Outbound relay only"),
      ("tasks", .dict [("@type", .text "EnableSome"),
        ("taskTypes", asSet ["outboundMta", "taskQueueProcessing", "taskScheduler", "metricsPush"])]),
      ("listeners", variant "EnableAll")])] ::
  dnsResolverOperation :: spamSettingsOperations settings

def stageAuthOperation (gateway : EgressGateway) : Operation :=
  .update "MtaStageAuth" "" [("mustMatchSender",
    .dict [("match", asList ((hostedPools gateway).map senderRule)), ("else", .text "true")])]

def connectionOperation (gateway : EgressGateway) : Operation :=
  .update "MtaOutboundStrategy" "" [("connection",
    .dict [("match", asList ((hostedPools gateway).map connectionRule)), ("else", .text "'default'")])]

/-- **`gateway_plan`.** -/
def gatewayPlan (settings : Settings) (cluster : StalwartCluster) (gateway : EgressGateway) :
    List Operation :=
  let dnsServer := stalwartDnsServer cluster.dnsZone
  coordinatorOperation "Disabled" :: (dnsServer.map dnsServerOperation).toList ++
    [acmeOperation settings cluster, gatewayDomainOperation settings cluster gateway dnsServer.isSome,
      .update "SystemSettings" "" (systemSettings gateway.hostname "#gateway" cluster.hostname),
      relayAccountOperation cluster] ++
    poolOperations gateway ++ gatewayDefaultsPlan settings ++ [tracerOperation] ++
    telemetryOperations settings gateway.hasEveryToken ++
    [stageAuthOperation gateway, connectionOperation gateway]

/-- **`gateway_recovery_plan`.** -/
def gatewayRecoveryPlan (settings : Settings) (cluster : StalwartCluster) (gateway : EgressGateway) :
    List Operation :=
  gatewayPlan settings cluster gateway ++ [adminAccountOperation gateway.adminUsername gateway.adminPassword]

end SuiteCloud.Mail.Cluster.Plan
