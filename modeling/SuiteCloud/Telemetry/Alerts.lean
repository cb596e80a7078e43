/-
**The alert of a silent server, and the checker that resolves it.**

`suite_cloud/telemetry/alerts.py`, with the contacts of `suite_cloud/telemetry/status.py` and `validate` of the
Server Alert: every check finds what is silent now or logs too many errors, opens an alert for what is new and
resolves the open alerts it found nothing for.

* `findSilentMetrics`, `findSilentScanners`, `findErrorRates` — the findings of a check.
* `Alerts.check` — the open alerts against the findings.
* `Action`, `step` — time, pushes and check-ins, what the warehouse and the cache hold of them, nodes and
  settings that change, checks, alerts resolved by hand.
* `Truthful` — the checker has resolved no silence alert of a server that had not reported since, and no
  server has two open alerts of one type.
* `Meets` — every server with an open silence alert that has not reported since is still watched, and still
  silent by the window of the settings; no two silent nodes share an address.
* `alerts_truthful` — **in a run whose every check meets that, the alerts are truthful.**
* `resolved_out_of_service` — the alert of a node that is taken out of service.

The texts of an alert are left out.
-/

import Mathlib.Algebra.Order.Group.Int
import Mathlib.Data.Int.Notation
import Mathlib.Data.List.Dedup
import SuiteCloud.Library.Dict
import SuiteCloud.Library.Transition
import SuiteCloud.Mail.Cluster.Records.Model

namespace SuiteCloud.Telemetry.Alerts

open SuiteCloud.Library
open SuiteCloud.Mail.Cluster.Records (NodeStatus)

/-! ## Alerts, servers and what they report -/

/-- `alert_type`. -/
inductive Kind
  | metricsSilent
  | scanSilent
  | errorRate
  deriving DecidableEq

/-- In `SILENCES`. -/
def Kind.isSilence : Kind → Bool
  | .metricsSilent | .scanSilent => true
  | .errorRate => false

/-- A Server Alert; moments are in microseconds. `openedOn` is the last report when the checker opened it, which
no code reads. -/
structure Alert where
  name : ℕ
  kind : Kind
  hostIp : String
  isOpen : Bool
  /-- What the wall clock showed. -/
  resolvedAt : Option ℤ
  dismissed : Bool
  openedOn : Option ℤ
  deriving DecidableEq

abbrev Key := Kind × String

def Alert.key (alert : Alert) : Key := (alert.kind, alert.hostIp)

/-- A push of metrics or a check-in of a scan shipper, with the moment it was received. -/
structure Report where
  hostIp : String
  receivedAt : ℤ
  deriving DecidableEq

/-- A row of `events`. -/
structure Event where
  hostIp : String
  timestamp : ℤ
  isError : Bool
  deriving DecidableEq

/-- A Stalwart Node, as far as it decides whether its shipper is watched. -/
structure Node where
  ipv4Address : String
  status : NodeStatus
  outboundScannerInstalled : Bool
  outboundScannerDigest : String
  cluster : String
  deriving DecidableEq

/-- What a check reads of the settings, with `get_config_digest` of every cluster. -/
structure Settings where
  enableTelemetry : Bool
  /-- `outbound_scan_mode` is Off. -/
  scanOff : Bool
  silenceMinutes : ℤ
  errorsPerHour : ℤ
  digest : String → String

/-- What has been received, and what the warehouse (`metrics`, `events`) and the cache (`contacts`) hold. -/
structure State where
  now : ℤ
  settings : Settings
  nodes : List Node
  pushes : List Report
  checkIns : List Report
  metrics : List Report
  events : List Event
  contacts : String → Option ℤ
  alerts : List Alert

def State.start (settings : Settings) : State := ⟨0, settings, [], [], [], [], [], fun _ => none, []⟩

def microsecondsPerMinute : ℤ := 60000000

/-- `LOOKBACK`. -/
def lookback : ℤ := 24 * 60 * microsecondsPerMinute

/-- `get_silence`. -/
def Settings.silence (settings : Settings) : ℤ :=
  microsecondsPerMinute * if settings.silenceMinutes = 0 then 30 else settings.silenceMinutes

/-- `errors_per_hour`. -/
def Settings.errorLimit (settings : Settings) : ℤ :=
  if settings.errorsPerHour = 0 then 100 else settings.errorsPerHour

variable (clock : ℤ → ℤ) (s : State)

/-! ## What a check finds -/

/-- `seenAt` is the moment of a silence's last report. -/
structure Finding where
  kind : Kind
  hostIp : String
  seenAt : Option ℤ
  deriving DecidableEq

def Finding.key (finding : Finding) : Key := (finding.kind, finding.hostIp)

/-- `get_last_pushes`, of the rows that meet the condition. -/
def getLastPushes (rows : List Report) : List (String × ℤ) :=
  (rows.map Report.hostIp).dedup.filterMap fun hostIp =>
    (((rows.filter (·.hostIp = hostIp)).map Report.receivedAt).max?).map (hostIp, ·)

/-- The rows of `find_silent_metrics`: the last push of every host within the lookback, and of every other host
that is watched. -/
def State.lastPushes (watched : List String) : List (String × ℤ) :=
  let recent := getLastPushes (s.metrics.filter (s.now - lookback ≤ ·.receivedAt))
  let stale := watched.filter (· ∉ recent.map Prod.fst)
  recent ++ getLastPushes (s.metrics.filter (·.hostIp ∈ stale))

/-- **`find_silent_metrics`.** -/
def State.findSilentMetrics (watched : List String) : List Finding :=
  let rows := s.lastPushes watched
  (rows.filter (·.2 < s.now - s.settings.silence)).map (fun row => ⟨.metricsSilent, row.1, some row.2⟩) ++
    (watched.filter (· ∉ rows.map Prod.fst)).map fun hostIp => ⟨.metricsSilent, hostIp, none⟩

/-- The node's shipper checks in: it serves, with the scanner of today. -/
def Settings.scans (settings : Settings) (node : Node) : Bool :=
  (node.status = .active || node.status = .draining) && node.outboundScannerInstalled &&
    node.outboundScannerDigest = settings.digest node.cluster

/-- `is_recent`, by the wall clock. -/
def State.isRecent (seen : ℤ) : Bool := clock s.now - clock seen ≤ s.settings.silence

/-- Its last check-in is not recent, or the cache lost it while an alert is open. -/
def State.isSilent (watched : List String) (hostIp : String) : Bool :=
  match s.contacts hostIp with
  | some seen => !s.isRecent clock seen
  | none => hostIp ∈ watched

/-- The nodes that `find_silent_scanners` has a finding for. -/
def State.silentNodes (watched : List String) : List Node :=
  if !s.settings.enableTelemetry || s.settings.scanOff then []
  else s.nodes.filter fun node => s.settings.scans node && s.isSilent clock watched node.ipv4Address

/-- **`find_silent_scanners`.** -/
def State.findSilentScanners (watched : List String) : List Finding :=
  (s.silentNodes clock watched).map fun node => ⟨.scanSilent, node.ipv4Address, s.contacts node.ipv4Address⟩

/-- **`find_error_rates`.** -/
def State.findErrorRates : List Finding :=
  let errors := (s.events.filter fun event =>
    s.now - 60 * microsecondsPerMinute ≤ event.timestamp ∧ event.isError).map Event.hostIp
  (errors.dedup.filter fun hostIp => s.settings.errorLimit ≤ errors.count hostIp).map
    (⟨.errorRate, ·, none⟩)

/-! ## The check -/

/-- `open_alerts`: the name of the open alert of a type and host. -/
def openAlerts (alerts : List Alert) : Dict Key ℕ :=
  Dict.ofList ((alerts.filter Alert.isOpen).map fun alert => (alert.key, alert.name))

/-- The hosts of `watched[kind]`. -/
def watchedHosts (kind : Kind) (alerts : List Alert) : List String :=
  ((openAlerts alerts).keys.filter (·.1 = kind)).map Prod.snd

/-- `findings`. -/
def State.findings : List Finding :=
  s.findSilentMetrics (watchedHosts .metricsSilent s.alerts) ++
    s.findSilentScanners clock (watchedHosts .scanSilent s.alerts) ++ s.findErrorRates

/-- `is_dismissed`. -/
def isDismissed (alerts : List Alert) (finding : Finding) : Bool :=
  finding.kind.isSilence && finding.seenAt.any fun seen =>
    alerts.any fun alert => alert.key = finding.key ∧ alert.dismissed ∧ alert.resolvedAt.any (clock seen ≤ ·)

/-- `open`; the name is new. -/
def openAlert (alerts : List Alert) (finding : Finding) : List Alert :=
  alerts ++ [⟨alerts.length, finding.kind, finding.hostIp, true, none, false, finding.seenAt⟩]

/-- One round of the loop over the findings: the open alerts that are left, and all alerts. -/
def checkFinding (left : Dict Key ℕ × List Alert) (finding : Finding) : Dict Key ℕ × List Alert :=
  if finding.key ∈ left.1.keys then (left.1.pop finding.key, left.2)
  else if isDismissed clock left.2 finding then left
  else (left.1, openAlert left.2 finding)

/-- `resolve`, with what `validate` sets. -/
def Alert.resolve (wall : ℤ) (alert : Alert) : Alert :=
  { alert with isOpen := false, resolvedAt := some wall, dismissed := false }

/-- **`Alerts.check`.** -/
def State.check : State :=
  let left := (s.findings clock).foldl (checkFinding clock) (openAlerts s.alerts, s.alerts)
  { s with
    alerts := left.2.map fun alert =>
      if alert.name ∈ left.1.map Prod.snd then alert.resolve (clock s.now) else alert }

/-- Resolved by hand. -/
def Alert.dismiss (wall : ℤ) (alert : Alert) : Alert := { alert.resolve wall with dismissed := true }

/-! ## Runs -/

inductive Action
  | pass (elapsed : ℕ)
  | push (hostIp : String)
  | checkIn (hostIp : String)
  /-- Batches are loaded, rows are deleted: the warehouse holds these rows of what was pushed. -/
  | warehouse (metrics : List Report) (events : List Event)
  /-- The cache loses the last check-in of a host. -/
  | forget (hostIp : String)
  /-- Nodes come, go and change. -/
  | setNodes (nodes : List Node)
  | configure (settings : Settings)
  | check
  | dismiss (name : ℕ)

/-- **One step.** -/
def step : Action → Option State
  | .pass elapsed => some { s with now := s.now + elapsed }
  | .push hostIp => some { s with pushes := ⟨hostIp, s.now⟩ :: s.pushes }
  | .checkIn hostIp =>
    some { s with
      checkIns := ⟨hostIp, s.now⟩ :: s.checkIns
      contacts := Function.update s.contacts hostIp (some s.now) }
  | .warehouse metrics events =>
    if metrics.all (· ∈ s.pushes) then some { s with metrics := metrics, events := events } else none
  | .forget hostIp => some { s with contacts := Function.update s.contacts hostIp none }
  | .setNodes nodes => some { s with nodes := nodes }
  | .configure settings => some { s with settings := settings }
  | .check => some (s.check clock)
  | .dismiss name =>
    some { s with
      alerts := s.alerts.map fun alert =>
        if alert.name = name ∧ alert.isOpen then alert.dismiss (clock s.now) else alert }

/-! ## What is proved -/

/-- What has been received of the reports the alert is about. -/
def State.reports (kind : Kind) : List Report :=
  match kind with
  | .metricsSilent => s.pushes
  | .scanSilent => s.checkIns
  | .errorRate => []

/-- The host has reported since the alert was opened. -/
def State.ReportedSince (alert : Alert) : Prop :=
  ∃ report ∈ s.reports alert.kind, report.hostIp = alert.hostIp ∧
    ∀ since ∈ alert.openedOn, since < report.receivedAt

/-- **A silence alert the checker resolved is of a host that had reported since, and there is one open alert at
most per type and host.** -/
def Truthful : Prop :=
  (∀ alert ∈ s.alerts, alert.kind.isSilence → alert.isOpen = false → alert.dismissed = false →
    s.ReportedSince alert) ∧
  ((s.alerts.filter Alert.isOpen).map Alert.key).Nodup

/-- The host is watched, and what is known of its last report is silence. -/
def State.StillSilent (kind : Kind) (hostIp : String) : Prop :=
  match kind with
  | .metricsSilent => ∀ row ∈ s.metrics, row.hostIp = hostIp → row.receivedAt < s.now - s.settings.silence
  | .scanSilent => s.settings.enableTelemetry = true ∧ s.settings.scanOff = false ∧
      (∃ node ∈ s.nodes, s.settings.scans node = true ∧ node.ipv4Address = hostIp) ∧
      ∀ seen ∈ s.contacts hostIp, s.isRecent clock seen = false
  | .errorRate => True

/-- **A check finds the hosts that did not report again still watched and silent**, and no two silent nodes of
one address. -/
def Meets : Action → Prop
  | .check =>
    (∀ alert ∈ s.alerts, alert.isOpen = true → alert.kind.isSilence → ¬ s.ReportedSince alert →
      s.StillSilent clock alert.kind alert.hostIp) ∧
    ((s.silentNodes clock (watchedHosts .scanSilent s.alerts)).map Node.ipv4Address).Nodup
  | _ => True

/-! ### What a check finds -/

section Findings

variable {s} {clock} {watched : List String} {hostIp : String}

theorem mem_getLastPushes {rows : List Report} {last : ℤ} (found : (hostIp, last) ∈ getLastPushes rows) :
    ∃ row ∈ rows, row.hostIp = hostIp ∧ row.receivedAt = last := by
  obtain ⟨other, -, same⟩ := List.mem_filterMap.mp found
  obtain ⟨moment, most, equal⟩ := Option.map_eq_some_iff.mp same
  obtain ⟨rfl, rfl⟩ := Prod.mk.inj equal
  obtain ⟨row, there, received⟩ := List.mem_map.mp (List.max?_mem most)
  obtain ⟨member, host⟩ := List.mem_filter.mp there
  exact ⟨row, member, of_decide_eq_true host, received⟩

theorem getLastPushes_of_mem {rows : List Report} {row : Report} (member : row ∈ rows) :
    row.hostIp ∈ (getLastPushes rows).map Prod.fst := by
  have some : ((rows.filter (·.hostIp = row.hostIp)).map Report.receivedAt).max?.isSome := by
    refine List.isSome_max?_of_mem (List.mem_map_of_mem (List.mem_filter.mpr ⟨member, ?_⟩))
    exact decide_eq_true rfl
  obtain ⟨last, most⟩ := Option.isSome_iff_exists.mp some
  refine List.mem_map.mpr ⟨(row.hostIp, last), List.mem_filterMap.mpr ⟨row.hostIp, ?_, ?_⟩, rfl⟩
  · exact List.mem_dedup.mpr (List.mem_map_of_mem member)
  · rw [most, Option.map_some]

theorem nodup_getLastPushes (rows : List Report) : ((getLastPushes rows).map Prod.fst).Nodup := by
  have fewer : List.Sublist ((getLastPushes rows).map Prod.fst) (rows.map Report.hostIp).dedup := by
    rw [getLastPushes]
    generalize (rows.map Report.hostIp).dedup = hosts
    induction hosts with
    | nil => exact List.Sublist.refl _
    | cons host rest ih =>
      rw [List.filterMap_cons]
      cases ((rows.filter (·.hostIp = host)).map Report.receivedAt).max? with
      | none => exact ih.cons host
      | some last => exact ih.cons_cons host
  exact (List.nodup_dedup _).sublist fewer

theorem nodup_lastPushes (s : State) (watched : List String) :
    ((s.lastPushes watched).map Prod.fst).Nodup := by
  rw [State.lastPushes, List.map_append]
  refine List.nodup_append.mpr ⟨nodup_getLastPushes _, nodup_getLastPushes _, ?_⟩
  rintro hostIp here other there rfl
  obtain ⟨⟨host, last⟩, found, rfl⟩ := List.mem_map.mp there
  obtain ⟨row, member, same, -⟩ := mem_getLastPushes found
  have stale := of_decide_eq_true (List.mem_filter.mp member).2
  rw [same] at stale
  exact of_decide_eq_true (List.mem_filter.mp stale).2 here

theorem mem_lastPushes {last : ℤ} (found : (hostIp, last) ∈ s.lastPushes watched) :
    ∃ row ∈ s.metrics, row.hostIp = hostIp ∧ row.receivedAt = last := by
  rcases List.mem_append.mp found with recent | stale
  · obtain ⟨row, member, both⟩ := mem_getLastPushes recent
    exact ⟨row, (List.mem_filter.mp member).1, both⟩
  · obtain ⟨row, member, both⟩ := mem_getLastPushes stale
    exact ⟨row, (List.mem_filter.mp member).1, both⟩

theorem findSilentMetrics_of_silent (among : hostIp ∈ watched)
    (silent : ∀ row ∈ s.metrics, row.hostIp = hostIp → row.receivedAt < s.now - s.settings.silence) :
    (Kind.metricsSilent, hostIp) ∈ (s.findSilentMetrics watched).map Finding.key := by
  rw [State.findSilentMetrics, List.map_append, List.mem_append]
  by_cases seen : hostIp ∈ (s.lastPushes watched).map Prod.fst
  · obtain ⟨⟨host, last⟩, found, rfl⟩ := List.mem_map.mp seen
    obtain ⟨row, member, same, received⟩ := mem_lastPushes found
    have before := silent row member same
    rw [received] at before
    left
    refine List.mem_map.mpr ⟨⟨.metricsSilent, host, some last⟩, List.mem_map.mpr ⟨(host, last), ?_, rfl⟩, rfl⟩
    exact List.mem_filter.mpr ⟨found, decide_eq_true before⟩
  · right
    refine List.mem_map.mpr ⟨⟨.metricsSilent, hostIp, none⟩, List.mem_map.mpr ⟨hostIp, ?_, rfl⟩, rfl⟩
    exact List.mem_filter.mpr ⟨among, decide_eq_true seen⟩

theorem findSilentMetrics_keys (s : State) (watched : List String) :
    (s.findSilentMetrics watched).map Finding.key =
      ((((s.lastPushes watched).filter (·.2 < s.now - s.settings.silence)).map Prod.fst) ++
        watched.filter (· ∉ (s.lastPushes watched).map Prod.fst)).map (Kind.metricsSilent, ·) := by
  rw [State.findSilentMetrics, List.map_append, List.map_append, List.map_map, List.map_map, List.map_map]
  rfl

theorem nodup_findSilentMetrics (s : State) (distinct : watched.Nodup) :
    ((s.findSilentMetrics watched).map Finding.key).Nodup := by
  rw [findSilentMetrics_keys]
  refine List.Nodup.map (Prod.mk_right_injective _) (List.nodup_append.mpr ⟨?_, distinct.filter _, ?_⟩)
  · exact (nodup_lastPushes s watched).sublist (List.filter_sublist.map Prod.fst)
  · rintro hostIp here other there rfl
    obtain ⟨row, member, rfl⟩ := List.mem_map.mp here
    refine of_decide_eq_true (List.mem_filter.mp there).2 ?_
    exact List.mem_map_of_mem (List.mem_filter.mp member).1

theorem findSilentScanners_of_silent (among : hostIp ∈ watched)
    (silent : s.StillSilent clock .scanSilent hostIp) :
    (Kind.scanSilent, hostIp) ∈ (s.findSilentScanners clock watched).map Finding.key := by
  obtain ⟨telemetry, scan, ⟨node, there, scans, rfl⟩, old⟩ := silent
  have isSilent : s.isSilent clock watched node.ipv4Address = true := by
    rw [State.isSilent]
    cases contact : s.contacts node.ipv4Address with
    | none => exact decide_eq_true among
    | some seen => exact Bool.not_eq_true' _ ▸ old seen contact
  have member : node ∈ s.silentNodes clock watched := by
    rw [State.silentNodes, telemetry, scan]
    exact List.mem_filter.mpr ⟨there, Bool.and_eq_true_iff.mpr ⟨scans, isSilent⟩⟩
  exact List.mem_map.mpr ⟨_, List.mem_map_of_mem member, rfl⟩

theorem findSilentScanners_keys (s : State) (watched : List String) :
    (s.findSilentScanners clock watched).map Finding.key =
      ((s.silentNodes clock watched).map Node.ipv4Address).map (Kind.scanSilent, ·) := by
  rw [State.findSilentScanners, List.map_map, List.map_map]
  rfl

theorem nodup_findErrorRates (s : State) : (s.findErrorRates.map Finding.key).Nodup := by
  rw [State.findErrorRates, List.map_map]
  exact ((List.nodup_dedup _).filter _).map (Prod.mk_right_injective Kind.errorRate)

theorem watchedHosts_nodup (kind : Kind) (alerts : List Alert) : (watchedHosts kind alerts).Nodup := by
  have distinct : ((openAlerts alerts).keys.filter (·.1 = kind)).Nodup := Dict.nodup_keys_ofList.filter _
  refine distinct.map_on ?_
  intro key here other there same
  refine Prod.ext ?_ same
  exact (of_decide_eq_true (List.mem_filter.mp here).2).trans
    (of_decide_eq_true (List.mem_filter.mp there).2).symm

theorem mem_openAlerts_keys {alerts : List Alert} {key : Key} :
    key ∈ (openAlerts alerts).keys ↔ ∃ alert ∈ alerts, alert.isOpen = true ∧ alert.key = key := by
  rw [openAlerts, Dict.mem_keys_ofList, List.map_map, List.mem_map]
  constructor
  · rintro ⟨alert, member, same⟩
    obtain ⟨there, isOpen⟩ := List.mem_filter.mp member
    exact ⟨alert, there, isOpen, same⟩
  · rintro ⟨alert, there, isOpen, same⟩
    exact ⟨alert, List.mem_filter.mpr ⟨there, isOpen⟩, same⟩

theorem mem_watchedHosts {alerts : List Alert} {alert : Alert} (member : alert ∈ alerts)
    (isOpen : alert.isOpen = true) : alert.hostIp ∈ watchedHosts alert.kind alerts := by
  refine List.mem_map.mpr ⟨alert.key, List.mem_filter.mpr ⟨?_, decide_eq_true rfl⟩, rfl⟩
  exact mem_openAlerts_keys.mpr ⟨alert, member, isOpen, rfl⟩

theorem findings_of_silent {alert : Alert} (member : alert ∈ s.alerts) (isOpen : alert.isOpen = true)
    (isSilence : alert.kind.isSilence = true) (silent : s.StillSilent clock alert.kind alert.hostIp) :
    alert.key ∈ (s.findings clock).map Finding.key := by
  have among := mem_watchedHosts member isOpen
  rw [State.findings, List.map_append, List.map_append, List.mem_append, List.mem_append, Alert.key]
  cases kind : alert.kind with
  | metricsSilent =>
    rw [kind] at among silent
    exact Or.inl (Or.inl (findSilentMetrics_of_silent among silent))
  | scanSilent =>
    rw [kind] at among silent
    exact Or.inl (Or.inr (findSilentScanners_of_silent among silent))
  | errorRate =>
    rw [kind] at isSilence
    cases isSilence

theorem nodup_findings
    (distinct : ((s.silentNodes clock (watchedHosts .scanSilent s.alerts)).map Node.ipv4Address).Nodup) :
    ((s.findings clock).map Finding.key).Nodup := by
  rw [State.findings, List.map_append, List.map_append, findSilentScanners_keys]
  have metrics : ∀ key ∈ (s.findSilentMetrics (watchedHosts .metricsSilent s.alerts)).map Finding.key,
      key.1 = .metricsSilent := by
    rw [findSilentMetrics_keys]
    intro key member
    obtain ⟨hostIp, -, rfl⟩ := List.mem_map.mp member
    rfl
  have errors : ∀ key ∈ s.findErrorRates.map Finding.key, key.1 = .errorRate := by
    rw [State.findErrorRates, List.map_map]
    intro key member
    obtain ⟨hostIp, -, rfl⟩ := List.mem_map.mp member
    rfl
  refine List.nodup_append.mpr ⟨List.nodup_append.mpr ⟨?_, ?_, ?_⟩, nodup_findErrorRates s, ?_⟩
  · exact nodup_findSilentMetrics s (watchedHosts_nodup _ _)
  · exact distinct.map (Prod.mk_right_injective _)
  · rintro key here other there rfl
    obtain ⟨hostIp, -, rfl⟩ := List.mem_map.mp there
    cases metrics _ here
  · rintro key here other there rfl
    have error := errors key there
    rcases List.mem_append.mp here with metric | scanner
    · cases (metrics key metric).symm.trans error
    · obtain ⟨hostIp, -, rfl⟩ := List.mem_map.mp scanner
      cases error

end Findings

/-! ### The loop over the findings -/

section Checks

variable {s s' : State} {clock : ℤ → ℤ}

/-- **The loop**: the open alerts that were not found are left, and each finding without an open alert has
opened one at most. -/
theorem foldl_checkFinding {findings : List Finding} (distinct : (findings.map Finding.key).Nodup)
    (left : Dict Key ℕ) (alerts : List Alert) (names : alerts.map Alert.name = List.range alerts.length) :
    ∃ opened : List Alert,
      findings.foldl (checkFinding clock) (left, alerts) =
        (left.filter fun entry => entry.1 ∉ findings.map Finding.key, alerts ++ opened) ∧
      (∀ alert ∈ opened, alert.isOpen = true) ∧
      (alerts ++ opened).map Alert.name = List.range (alerts ++ opened).length ∧
      List.Sublist (opened.map Alert.key) ((findings.map Finding.key).filter (· ∉ left.keys)) := by
  induction findings generalizing left alerts with
  | nil =>
    refine ⟨[], ?_, List.forall_mem_nil _, by simpa only [List.append_nil] using names, List.nil_sublist _⟩
    rw [List.foldl_nil, List.append_nil, List.filter_eq_self.mpr]
    exact fun entry _ => decide_eq_true List.not_mem_nil
  | cons finding rest ih =>
    obtain ⟨absent, distinct⟩ := List.nodup_cons.mp distinct
    rw [List.foldl_cons, checkFinding]
    by_cases known : finding.key ∈ left.keys
    · rw [if_pos known]
      obtain ⟨opened, result, isOpen, named, keys⟩ := ih distinct (left.pop finding.key) alerts names
      refine ⟨opened, ?_, isOpen, named, ?_⟩
      · rw [result, Dict.pop, List.filter_filter]
        refine Prod.ext (List.filter_congr fun entry _ => ?_) rfl
        rw [Bool.eq_iff_iff, Bool.and_eq_true, decide_eq_true_iff, decide_eq_true_iff, decide_eq_true_iff,
          List.map_cons, List.mem_cons, not_or, and_comm]
      · rw [List.map_cons, List.filter_cons_of_neg (by simpa using known)]
        have same : (rest.map Finding.key).filter (· ∉ (left.pop finding.key).keys) =
            (rest.map Finding.key).filter (· ∉ left.keys) := by
          refine List.filter_congr fun key member => ?_
          -- The others of the findings have other keys than the one that is popped.
          have other : key ≠ finding.key := fun same => absent (same ▸ member)
          refine decide_eq_decide.mpr (not_congr ⟨fun there => ?_, fun there => ?_⟩)
          · obtain ⟨entry, among, same⟩ := List.mem_map.mp there
            exact List.mem_map.mpr ⟨entry, (List.mem_filter.mp among).1, same⟩
          · obtain ⟨entry, among, rfl⟩ := List.mem_map.mp there
            exact List.mem_map_of_mem (List.mem_filter.mpr ⟨among, decide_eq_true other⟩)
        rwa [same] at keys
    · rw [if_neg known]
      have same : ∀ entry ∈ left, decide (entry.1 ∉ rest.map Finding.key) =
          decide (entry.1 ∉ (finding :: rest).map Finding.key) := by
        intro entry member
        have other : entry.1 ≠ finding.key := fun equal => known (equal ▸ List.mem_map_of_mem member)
        refine decide_eq_decide.mpr ?_
        rw [List.map_cons, List.mem_cons, or_iff_right other]
      have kept : (finding.key :: rest.map Finding.key).filter (· ∉ left.keys) =
          finding.key :: (rest.map Finding.key).filter (· ∉ left.keys) :=
        List.filter_cons_of_pos (decide_eq_true known)
      by_cases dismissed : isDismissed clock alerts finding = true
      · rw [if_pos dismissed]
        obtain ⟨opened, result, isOpen, named, keys⟩ := ih distinct left alerts names
        refine ⟨opened, ?_, isOpen, named, ?_⟩
        · rw [result, List.filter_congr same]
        · rw [List.map_cons, kept]
          exact keys.cons _
      · rw [if_neg dismissed]
        have names' : (openAlert alerts finding).map Alert.name =
            List.range (openAlert alerts finding).length := by
          rw [openAlert, List.map_append, names, List.length_append, List.length_singleton,
            List.range_succ]
          rfl
        obtain ⟨opened, result, isOpen, named, keys⟩ := ih distinct left _ names'
        rw [openAlert, List.append_assoc] at named
        refine ⟨_, ?_, ?_, named, ?_⟩
        · rw [result, List.filter_congr same, openAlert, List.append_assoc]
        · intro alert member
          rcases List.mem_cons.mp member with rfl | later
          · rfl
          · exact isOpen alert later
        · rw [List.map_cons, kept]
          exact keys.cons_cons _

/-- **The invariant.** -/
structure Inv (s : State) : Prop where
  names : s.alerts.map Alert.name = List.range s.alerts.length
  truthful : Truthful s

theorem Inv.start (settings : Settings) : Inv (State.start settings) :=
  ⟨rfl, List.forall_mem_nil _, List.nodup_nil⟩

theorem Inv.name_injective (inv : Inv s) {alert other : Alert} (here : alert ∈ s.alerts)
    (there : other ∈ s.alerts) (same : alert.name = other.name) : alert = other := by
  have distinct : (s.alerts.map Alert.name).Nodup := inv.names ▸ List.nodup_range
  exact List.inj_on_of_nodup_map distinct here there same

theorem Inv.frame (inv : Inv s) (alerts : s'.alerts = s.alerts) (pushes : s.pushes ⊆ s'.pushes)
    (checkIns : s.checkIns ⊆ s'.checkIns) : Inv s' := by
  have reports : ∀ kind, s.reports kind ⊆ s'.reports kind := by
    intro kind
    cases kind with
    | metricsSilent => exact pushes
    | scanSilent => exact checkIns
    | errorRate => exact List.Subset.refl _
  refine ⟨alerts ▸ inv.names, ?_, alerts ▸ inv.truthful.2⟩
  intro alert member isSilence closed undismissed
  rw [alerts] at member
  obtain ⟨report, received, newer⟩ := inv.truthful.1 alert member isSilence closed undismissed
  exact ⟨report, reports _ received, newer⟩

/-- A change of the alerts that keeps their names and closes some. -/
theorem Inv.closes {change : Alert → Alert} (inv : Inv s) (names : ∀ alert, (change alert).name = alert.name)
    (keys : ∀ alert, (change alert).key = alert.key)
    (closes : ∀ alert, (change alert).isOpen = true → alert.isOpen = true)
    (truthful : ∀ alert ∈ s.alerts, alert.kind.isSilence → (change alert).isOpen = false →
      (change alert).dismissed = false → change alert = alert ∨ s.ReportedSince (change alert)) :
    Inv { s with alerts := s.alerts.map change } := by
  refine ⟨?_, ?_, ?_⟩
  · rw [List.length_map, ← inv.names, List.map_map]
    exact List.map_congr_left fun alert _ => names alert
  · intro alert member isSilence closed undismissed
    obtain ⟨before, there, rfl⟩ := List.mem_map.mp member
    have kind : (change before).kind = before.kind := congrArg Prod.fst (keys before)
    rw [kind] at isSilence
    rcases truthful before there isSilence closed undismissed with same | reported
    · rw [same] at closed undismissed ⊢
      exact inv.truthful.1 before there isSilence closed undismissed
    · exact reported
  · have fewer : List.Sublist (((s.alerts.map change).filter Alert.isOpen).map Alert.key)
        ((s.alerts.filter Alert.isOpen).map Alert.key) := by
      rw [List.filter_map, List.map_map]
      have same : (Alert.key ∘ change) = Alert.key := funext keys
      rw [same]
      exact (List.monotone_filter_right s.alerts closes).map Alert.key
    exact inv.truthful.2.sublist fewer

/-- Alerts that are opened, of no type and host that has an open one. -/
theorem Inv.opens {opened : List Alert} (inv : Inv s) (isOpen : ∀ alert ∈ opened, alert.isOpen = true)
    (names : (s.alerts ++ opened).map Alert.name = List.range (s.alerts ++ opened).length)
    (distinct : (opened.map Alert.key).Nodup)
    (new : ∀ key ∈ opened.map Alert.key, key ∉ (openAlerts s.alerts).keys) :
    Inv { s with alerts := s.alerts ++ opened } := by
  refine ⟨names, ?_, ?_⟩
  · intro alert member isSilence closed undismissed
    rcases List.mem_append.mp member with old | added
    · exact inv.truthful.1 alert old isSilence closed undismissed
    · cases closed.symm.trans (isOpen alert added)
  · show (((s.alerts ++ opened).filter Alert.isOpen).map Alert.key).Nodup
    rw [List.filter_append, List.filter_eq_self.mpr isOpen, List.map_append]
    refine List.nodup_append.mpr ⟨inv.truthful.2, distinct, ?_⟩
    rintro key here other there rfl
    obtain ⟨alert, member, rfl⟩ := List.mem_map.mp here
    obtain ⟨old, stillOpen⟩ := List.mem_filter.mp member
    exact new _ there (mem_openAlerts_keys.mpr ⟨alert, old, stillOpen, rfl⟩)

theorem check_inv (inv : Inv s) (meets : Meets clock s .check) : Inv (s.check clock) := by
  obtain ⟨silent, addresses⟩ := meets
  have distinct := nodup_findings addresses
  obtain ⟨opened, result, isOpen, names, keys⟩ :=
    foldl_checkFinding distinct (openAlerts s.alerts) s.alerts inv.names
  have new : ∀ key ∈ opened.map Alert.key, key ∉ (openAlerts s.alerts).keys := fun key member =>
    of_decide_eq_true (List.mem_filter.mp (keys.subset member)).2
  have grown : Inv { s with alerts := s.alerts ++ opened } :=
    inv.opens isOpen names ((distinct.filter _).sublist keys) new
  rw [State.check, result]
  refine grown.closes ?_ ?_ ?_ ?_
  · intro alert
    split
    · rfl
    · rfl
  · intro alert
    split
    · rfl
    · rfl
  · intro alert stillOpen
    split at stillOpen
    · cases stillOpen
    · exact stillOpen
  · intro alert member isSilence _ _
    split
    · rename_i left
      right
      obtain ⟨⟨key, name⟩, entry, same⟩ := List.mem_map.mp left
      obtain ⟨among, unfound⟩ := List.mem_filter.mp entry
      obtain ⟨known, there, equal⟩ := List.mem_map.mp (Dict.mem_of_mem_ofList among)
      obtain ⟨old, wasOpen⟩ := List.mem_filter.mp there
      obtain ⟨rfl, rfl⟩ := Prod.mk.inj equal
      -- What is left is the alert itself, and there is no finding for it.
      obtain rfl := grown.name_injective (List.mem_append_left _ old) member same
      show s.ReportedSince known
      by_contra unreported
      have found := findings_of_silent old wasOpen isSilence (silent known old wasOpen isSilence unreported)
      exact of_decide_eq_true unfound found
    · exact Or.inl rfl

theorem dismiss_inv {name : ℕ} (inv : Inv s) : Inv { s with
    alerts := s.alerts.map fun alert =>
      if alert.name = name ∧ alert.isOpen then alert.dismiss (clock s.now) else alert } := by
  refine inv.closes ?_ ?_ ?_ ?_
  · intro alert
    split
    · rfl
    · rfl
  · intro alert
    split
    · rfl
    · rfl
  · intro alert stillOpen
    split at stillOpen
    · cases stillOpen
    · exact stillOpen
  · intro alert member isSilence _ undismissed
    split at undismissed
    · cases undismissed
    · rename_i other
      exact Or.inl (if_neg other)

theorem step_inv {action : Action} (inv : Inv s) (meets : Meets clock s action)
    (taken : step clock s action = some s') : Inv s' := by
  cases action with
  | pass elapsed =>
    obtain rfl := Option.some.inj taken
    exact inv.frame rfl (List.Subset.refl _) (List.Subset.refl _)
  | push hostIp =>
    obtain rfl := Option.some.inj taken
    exact inv.frame rfl (List.subset_cons_self _ _) (List.Subset.refl _)
  | checkIn hostIp =>
    obtain rfl := Option.some.inj taken
    exact inv.frame rfl (List.Subset.refl _) (List.subset_cons_self _ _)
  | warehouse metrics events =>
    obtain ⟨-, result⟩ := Option.ite_none_right_eq_some.mp taken
    obtain rfl := Option.some.inj result
    exact inv.frame rfl (List.Subset.refl _) (List.Subset.refl _)
  | forget hostIp =>
    obtain rfl := Option.some.inj taken
    exact inv.frame rfl (List.Subset.refl _) (List.Subset.refl _)
  | setNodes nodes =>
    obtain rfl := Option.some.inj taken
    exact inv.frame rfl (List.Subset.refl _) (List.Subset.refl _)
  | configure settings =>
    obtain rfl := Option.some.inj taken
    exact inv.frame rfl (List.Subset.refl _) (List.Subset.refl _)
  | check =>
    obtain rfl := Option.some.inj taken
    exact check_inv inv meets
  | dismiss name =>
    obtain rfl := Option.some.inj taken
    exact dismiss_inv inv

end Checks

/-- **A silence alert stays open until the server reports again**, in a run whose every check meets `Meets`, and
no type and host ever has two open alerts. -/
theorem alerts_truthful {clock : ℤ → ℤ} {settings : Settings} {s : State}
    (reached : Reaches (step clock) (Meets clock) (State.start settings) s) : Truthful s := by
  have inv : Inv s :=
    reached.invariant Inv (Inv.start settings) fun inv meets taken => step_inv inv meets taken
  exact inv.truthful

instance decidableReportedSince (s : State) (alert : Alert) : Decidable (s.ReportedSince alert) :=
  inferInstanceAs (Decidable (∃ report ∈ s.reports alert.kind, report.hostIp = alert.hostIp ∧
    ∀ since ∈ alert.openedOn, since < report.receivedAt))

instance decidableTruthful (s : State) : Decidable (Truthful s) := inferInstanceAs (Decidable (_ ∧ _))

instance decidableStillSilent (clock : ℤ → ℤ) (s : State) (hostIp : String) :
    ∀ kind, Decidable (s.StillSilent clock kind hostIp)
  | .metricsSilent => inferInstanceAs (Decidable (∀ row ∈ s.metrics, row.hostIp = hostIp →
      row.receivedAt < s.now - s.settings.silence))
  | .scanSilent => inferInstanceAs (Decidable (s.settings.enableTelemetry = true ∧
      s.settings.scanOff = false ∧
      (∃ node ∈ s.nodes, s.settings.scans node = true ∧ node.ipv4Address = hostIp) ∧
      ∀ seen ∈ s.contacts hostIp, s.isRecent clock seen = false))
  | .errorRate => isTrue trivial

instance decidableMeets (clock : ℤ → ℤ) (s : State) : ∀ action, Decidable (Meets clock s action)
  | .check => inferInstanceAs (Decidable (
      (∀ alert ∈ s.alerts, alert.isOpen = true → alert.kind.isSilence → ¬ s.ReportedSince alert →
        s.StillSilent clock alert.kind alert.hostIp) ∧
      ((s.silentNodes clock (watchedHosts .scanSilent s.alerts)).map Node.ipv4Address).Nodup))
  | .pass _ | .push _ | .checkIn _ | .warehouse _ _ | .forget _ | .setNodes _ | .configure _
  | .dismiss _ => isTrue trivial

/-- Telemetry and the scan are on, and half an hour is silence. -/
def watching : Settings := ⟨true, false, 30, 100, fun _ => "current"⟩

def minutes (count : ℕ) : Action := .pass (60000000 * count)

/-- A server pushes, goes silent and pushes again. -/
def backAgain : List Action :=
  [.push "203.0.113.5", .warehouse [⟨"203.0.113.5", 0⟩] [], minutes 45, .check, .push "203.0.113.5",
    .warehouse [⟨"203.0.113.5", 0⟩, ⟨"203.0.113.5", 2700000000⟩] [], minutes 5, .check]

theorem alerts_truthful_back_again : ∃ s, run (step id) (State.start watching) backAgain = some s ∧
    s.alerts = [⟨0, .metricsSilent, "203.0.113.5", false, some 3000000000, false, some 0⟩] ∧ Truthful s := by
  have ends : (run (step id) (State.start watching) backAgain).map State.alerts =
      some [⟨0, .metricsSilent, "203.0.113.5", false, some 3000000000, false, some 0⟩] := by
    decide
  obtain ⟨s, done, alerts⟩ := Option.map_eq_some_iff.mp ends
  have meets : RunMeets (step id) (Meets id) (State.start watching) backAgain := by decide
  exact ⟨s, done, alerts, alerts_truthful (reaches_of_run meets done)⟩

/-- A node whose shipper is watched. -/
def scanning (status : NodeStatus) : Node := ⟨"203.0.113.5", status, true, "current", "mail.example.com"⟩

/-- A node's shipper stops, and the node is taken out of service. -/
def outOfService : List Action :=
  [.setNodes [scanning .active], .checkIn "203.0.113.5", minutes 45, .check,
    .setNodes [scanning .disabled], minutes 5, .check]

/-- **The alert of a node taken out of service is resolved, without a check-in.** -/
theorem resolved_out_of_service : ∃ s, Reaches (step id) anyStep (State.start watching) s ∧
    s.checkIns = [⟨"203.0.113.5", 0⟩] ∧
    s.alerts = [⟨0, .scanSilent, "203.0.113.5", false, some 3000000000, false, some 0⟩] ∧ ¬ Truthful s := by
  have ends : (run (step id) (State.start watching) outOfService).map
      (fun s => (s.checkIns, s.alerts, decide (Truthful s))) =
        some ([⟨"203.0.113.5", 0⟩],
          [⟨0, .scanSilent, "203.0.113.5", false, some 3000000000, false, some 0⟩], false) := by
    decide
  obtain ⟨s, done, all⟩ := Option.map_eq_some_iff.mp ends
  obtain ⟨checkIns, alerts, truthful⟩ := Prod.mk.injEq .. ▸ Prod.mk.injEq .. ▸ all
  exact ⟨s, reaches_of_run (runMeets_of_forall fun _ _ _ => trivial) done, checkIns, alerts,
    of_decide_eq_false truthful⟩

end SuiteCloud.Telemetry.Alerts
