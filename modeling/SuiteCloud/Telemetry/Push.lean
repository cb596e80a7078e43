/-
**Telemetry: WebHook events, their rows and their batch id.**

`suite_cloud/telemetry/push.py`. A request carries a list of decoded JSON values; `getEventRows`
parses each, skips those that do not parse with a problem text, and keeps the rows the stream lists.
`getBatchId` names the request's batch.

What the standard library and orjson do with a value is a `Runtime`: `str`, `datetime.fromisoformat`,
`orjson.dumps` and `uuid5`. No statement looks into the first three; `uuid5` is assumed injective
where a statement says so.

* `getBatchId_eq_iff` — **when two batch ids are equal**: the same server, the same number of events
  and the same text of the first and the last id, joined by a colon.
-/

import Mathlib.Tactic.Common
import SuiteCloud.Library.Text

namespace SuiteCloud.Telemetry

open SuiteCloud.Library

/-! ## Decoded values -/

/-- A decoded JSON value; a float is its `repr`, which determines it. -/
inductive Json
  | null
  | bool (value : Bool)
  | int (value : Int)
  | float (repr : String)
  | str (value : String)
  | list (items : List Json)
  | object (fields : List (String × Json))

/-- `dict.get`, null where the key is missing. -/
def get (fields : List (String × Json)) (key : String) : Json :=
  (fields.lookup key).getD .null

/-- Python's truth value. -/
def Json.isTruthy : Json → Bool
  | .null => false
  | .bool value => value
  | .int value => decide (value ≠ 0)
  | .float repr => decide (repr ≠ "0.0" ∧ repr ≠ "-0.0")
  | .str value => decide (value ≠ "")
  | .list items => !items.isEmpty
  | .object fields => !fields.isEmpty

/-- **The standard library and orjson**, on decoded values. `fromisoformat` raises (`none`), or gives
a moment without an offset (`some none`) or one, in UTC. -/
structure Runtime (Moment BatchId : Type) where
  str : Json → String
  fromisoformat : Json → Option (Option Moment)
  dumps : List (String × Json) → String
  uuid5 : String → BatchId

/-! ## The listed events -/

inductive Level
  | debug
  | info
  | warn
  | error
  deriving DecidableEq

/-- The events the workbook and the alerts read that Stalwart logs at info level. -/
def infoEvents : List String :=
  ["auth.success", "dane.authentication-failure", "dane.tlsa-record-fetch-error",
    "delivery.connect", "delivery.connect-error", "delivery.delivered", "delivery.double-bounce",
    "delivery.dsn-perm-fail", "delivery.dsn-temp-fail", "delivery.ehlo-rejected",
    "delivery.failed", "delivery.greeting-failed", "delivery.ip-lookup-failed",
    "delivery.mail-from-rejected", "delivery.message-rejected", "delivery.mx-lookup-failed",
    "delivery.null-mx", "delivery.rcpt-to-rejected", "delivery.start-tls",
    "delivery.start-tls-error", "delivery.start-tls-unavailable", "message-ingest.ham",
    "message-ingest.spam", "milter.action-accept", "milter.action-discard", "milter.action-reject",
    "milter.action-reply-code", "milter.action-temp-fail", "mta-sts.invalid-policy",
    "mta-sts.not-authorized", "mta-sts.policy-fetch-error", "queue.rescheduled",
    "security.abuse-ban", "security.authentication-ban", "security.ip-blocked",
    "security.loiter-ban", "security.scan-ban", "server.startup",
    "smtp.auth-mechanism-not-supported", "smtp.auth-not-allowed", "smtp.dkim-fail",
    "smtp.dkim-pass", "smtp.dmarc-fail", "smtp.dmarc-pass", "smtp.ehlo", "smtp.invalid-ehlo",
    "smtp.iprev-fail", "smtp.iprev-pass", "smtp.mail-from", "smtp.mailbox-does-not-exist",
    "smtp.rate-limit-exceeded", "smtp.relay-not-allowed", "smtp.spf-ehlo-fail",
    "smtp.spf-ehlo-pass", "smtp.spf-from-fail", "smtp.spf-from-pass", "smtp.too-many-messages",
    "smtp.too-many-recipients", "tls-rpt.record-fetch-error"]

/-- `EVENT_LEVELS`: what the events webhook sends, at the level Stalwart logs each. -/
def eventLevels : List (String × Level) :=
  infoEvents.map (·, Level.info) ++
    [("delivery.ip-lookup", Level.debug), ("delivery.mx-lookup", .debug)] ++
    [("auth.too-many-attempts", Level.warn), ("smtp.id-not-found", .warn)] ++
    [("auth.error", Level.error), ("server.startup-error", .error)]

/-- Every other event Stalwart logs at error level. -/
def errorEvents : List String :=
  ["acme.error", "cluster.message-invalid", "cluster.publisher-error", "cluster.subscriber-error",
    "dkim.build-error", "dns.build-error", "message-ingest.error", "network.bind-error",
    "network.listen-error", "network.set-opt-error", "network.split-error", "registry.build-error",
    "registry.deserialization-error", "registry.local-parse-error", "registry.local-read-error",
    "registry.local-write-error", "registry.read-error", "registry.validation-error",
    "registry.write-error", "resource.bad-parameters", "resource.error", "server.thread-error",
    "sieve.unexpected-error", "store.assert-value-failed", "store.azure-error",
    "store.crypto-error", "store.data-corruption", "store.decompress-error",
    "store.deserialize-error", "store.elasticsearch-error", "store.filesystem-error",
    "store.foundationdb-error", "store.ldap-error", "store.meilisearch-error", "store.mysql-error",
    "store.not-configured", "store.not-supported", "store.pool-error", "store.postgresql-error",
    "store.redis-error", "store.rocksdb-error", "store.s3-error", "store.sqlite-error",
    "store.unexpected-error", "tls.not-configured"]

/-- Every other event Stalwart logs at warn level. -/
def warnEvents : List String :=
  ["acme.auth-error", "acme.auth-too-many-attempts", "acme.order-invalid", "acme.tls-alpn-error",
    "acme.token-not-found", "ai.api-error", "arc.sealer-not-found", "calendar.alarm-failed",
    "cluster.subscriber-disconnected", "delivery.concurrency-limit-exceeded",
    "delivery.missing-outbound-hostname", "delivery.rate-limit-exceeded", "dkim.signer-not-found",
    "dns.record-creation-failed", "dns.record-propagation-timeout", "eval.directory-not-found",
    "http.x-forwarded-missing", "incoming-report.dmarc-report-with-warnings",
    "incoming-report.tls-report-with-warnings", "limit.concurrent-connection",
    "limit.too-many-requests", "milter.disconnected", "milter.frame-invalid",
    "milter.frame-too-large", "milter.io-error", "milter.parse-error", "milter.timeout",
    "milter.tls-invalid-name", "milter.unexpected-response", "mta-hook.error",
    "network.proxy-error", "queue.back-pressure", "registry.build-warning",
    "server.bootstrap-mode", "server.recovery-mode", "sieve.list-not-found",
    "sieve.message-too-large", "sieve.not-supported", "sieve.quota-exceeded",
    "sieve.script-not-found", "smtp.missing-local-hostname", "spam.train-sample-not-found",
    "store.blob-missing-marker", "store.cache-entry-too-large", "store.http-store-error",
    "task-manager.task-failed", "telemetry.alert-event", "telemetry.journal-error",
    "telemetry.log-error", "telemetry.otel-exporter-error",
    "telemetry.otel-metrics-exporter-error", "telemetry.prometheus-exporter-error",
    "tls.multiple-certificates-available", "tls.no-certificates-available"]

/-- `STREAM_EVENTS`: what each WebHook lists. -/
def streamEvents : List (String × List String) :=
  [("events", eventLevels.map Prod.fst), ("errors", errorEvents), ("warnings", warnEvents)]

/-- `LEVELS.get(name, "error")`. -/
def levelOf (name : String) : Level :=
  (eventLevels.lookup name).getD (if name ∈ warnEvents then .warn else .error)

/-! ## Rows -/

/-- An event left out of its batch. -/
inductive Skipped
  | notAnObject
  | badType
  | badData
  | badTimestamp
  | noOffset
  deriving DecidableEq

def eventNameLimit : ℕ := 128

def spanIdLimit : ℕ := 64

def Skipped.message : Skipped → String
  | .notAnObject => "not an object"
  | .badType => s!"type must be 1 to {eventNameLimit} characters"
  | .badData => "data must be an object"
  | .badTimestamp => "createdAt must be an RFC 3339 timestamp"
  | .noOffset => "createdAt must carry a UTC offset"

/-- A parsed event. -/
structure EventRow (Moment : Type) where
  timestamp : Moment
  level : Level
  event : String
  spanId : Option String
  data : String
  deriving DecidableEq

variable {Moment BatchId : Type} (runtime : Runtime Moment BatchId)

/-- An RFC 3339 instant with its offset. -/
def parseTimestamp (value : Json) : Except Skipped Moment :=
  match runtime.fromisoformat value with
  | none => .error .badTimestamp
  | some none => .error .noOffset
  | some (some moment) => .ok moment

/-- `event.get("data") or {}`, where that is an object. -/
def eventData (fields : List (String × Json)) : Except Skipped (List (String × Json)) :=
  match get fields "data" with
  | .object data => .ok data
  | other => if other.isTruthy then .error .badData else .ok []

/-- `data.pop("spanId", None)` as text. -/
def spanIdOf (data : List (String × Json)) : Option String :=
  match get data "spanId" with
  | .null => none
  | value => some (String.ofList ((runtime.str value).toList.take spanIdLimit))

def parseEvent : Json → Except Skipped (EventRow Moment)
  | .object fields =>
      match get fields "type" with
      | .str name =>
          if 0 < name.length ∧ name.length ≤ eventNameLimit then do
            let data ← eventData fields
            let timestamp ← parseTimestamp runtime (get fields "createdAt")
            return ⟨timestamp, levelOf name, name, spanIdOf runtime data,
              runtime.dumps (data.filter (·.1 ≠ "spanId"))⟩
          else .error .badType
      | _ => .error .badType
  | _ => .error .notAnObject

/-- **The rows of a request** on a stream that lists `listed`, and the problems of the events it
skips. An event the stream does not list is left out. -/
def getEventRows (listed : List String) (events : List Json) :
    List (EventRow Moment) × List String :=
  let parsed := events.map (parseEvent runtime)
  (parsed.filterMap fun
      | .ok row => if row.event ∈ listed then some row else none
      | .error _ => none,
    parsed.zipIdx.filterMap fun
      | (.ok _, _) => none
      | (.error problem, index) =>
          let text := problem.message
          some s!"events[{index}]: {text}")

/-! ## The batch id -/

/-- The id of an event, null for what is no object. -/
def eventId : Json → Json
  | .object fields => get fields "id"
  | _ => .null

/-- The ids of the first and the last event, as the batch id joins them. -/
def idsText (events : List Json) : String :=
  runtime.str ((events.head?.map eventId).getD .null) ++ ":" ++
    runtime.str ((events.getLast?.map eventId).getD .null)

/-- The text the batch id is derived from. -/
def batchText (server : String) (events : List Json) : String :=
  server ++ ":" ++ idsText runtime events ++ ":" ++ toString events.length

/-- `get_batch_id`, of a request with at least one event. -/
def getBatchId (server : String) (events : List Json) : BatchId :=
  runtime.uuid5 (batchText runtime server events)

/-- A server's name: its hostname. -/
structure Hostname where
  name : String
  plain : ':' ∉ name.toList

theorem Hostname.ext_name {first second : Hostname} (same : first.name = second.name) :
    first = second := by
  cases first
  cases second
  cases same
  rfl

theorem batchText_toList (server : String) (events : List Json) :
    (batchText runtime server events).toList =
      server.toList ++ ':' :: ((idsText runtime events).toList ++
        ':' :: (toString events.length).toList) := by
  unfold batchText
  simp only [String.toList_append, List.append_assoc]
  rfl

theorem getBatchId_eq_iff (injective : Function.Injective runtime.uuid5) {first second : Hostname}
    {events events' : List Json} :
    getBatchId runtime first.name events = getBatchId runtime second.name events' ↔
      first = second ∧ events.length = events'.length ∧
        idsText runtime events = idsText runtime events' := by
  constructor
  · intro same
    have texts := congrArg String.toList (injective same)
    rw [batchText_toList, batchText_toList] at texts
    obtain ⟨servers, rests⟩ := split_first first.plain second.plain texts
    have noColon : ∀ n : ℕ, ':' ∉ (toString n).toList := by
      intro n member
      have digit := decimal_digits member
      exact absurd digit (by decide)
    obtain ⟨ids, lengths⟩ := split_last (noColon _) (noColon _) rests
    exact ⟨Hostname.ext_name (String.toList_inj.mp servers), decimal_injective lengths,
      String.toList_inj.mp ids⟩
  · rintro ⟨rfl, lengths, ids⟩
    unfold getBatchId batchText
    rw [lengths, ids]

end SuiteCloud.Telemetry
