/-
**Telemetry: the outbound scans a node's shipper pushes.**

`suite_cloud/telemetry/outbound_scans.py` and the method `outbound_scans` of
`suite_cloud/api/telemetry/__init__.py`. A request carries a list of records. Each is parsed, and skipped with
a problem text where it does not parse; the rows of the others are staged under an id that is derived from
all records.

What the standard library and orjson do with a number and a text is a `Runtime`.

* `parseScan`, `getScanRows`, `getBatchId`, `outboundScans` — the functions.
* `scanRowsFrom_eq` — **what is staged of which record**: one row of every record that parses, in order.
* `getBatchId_inj` — **the id tells lists of records apart**, whatever order their keys came in.
* `outboundScans_eq` — **what an accepted request stages**, by the records its rows are of.
-/

import SuiteCloud.Library.JsonKeys
import SuiteCloud.Library.Text
import SuiteCloud.Telemetry.Spool

namespace SuiteCloud.Telemetry.OutboundScans

open SuiteCloud.Library

def addressLimit : ℕ := 320

def textLimit : ℕ := 998

def shortLimit : ℕ := 64

def symbolLimit : ℕ := 200

/-- `SCAN_LIMIT`. -/
def scanLimit : ℕ := 5000

/-- **The standard library and orjson**, on numbers and texts. -/
structure Runtime (N Moment BatchId : Type) where
  /-- `math.isfinite`; none where it raises, for an int too large for a float. -/
  isfinite : N → Option Bool
  float : N → N
  int : N → ℤ
  flt : N → N
  /-- `flt(value, 4)`. -/
  flt4 : N → N
  /-- `datetime.fromtimestamp` in UTC; none where it raises. -/
  fromtimestamp : N → Option Moment
  lower : String → String
  /-- `orjson.dumps` takes it: it raises for an int of more than 64 bits. -/
  fits : Library.Json N → Bool
  /-- How `orjson.dumps` writes. -/
  orjson : Json.Style
  /-- `hashlib.sha256(…).hexdigest()`. -/
  sha256 : List Char → List Char
  /-- `uuid5` in the namespace of URLs. -/
  uuid5 : List Char → BatchId

/-! ## A record -/

/-- Why a record gives no row: it is skipped, or what it holds makes the request raise. -/
inductive Refusal
  | skipped (problem : String)
  | raised
  deriving DecidableEq

/-- What `parse_scan` returns, but for the scores of the symbols. -/
structure ScanRow (N Moment : Type) where
  timestamp : Moment
  account : String
  envelopeFrom : Option String
  headerFrom : Option String
  messageId : Option String
  queueId : Option String
  clientIp : Option String
  recipients : Option ℕ
  size : Option ℕ
  action : String
  score : N
  scanTime : Option N

/-- A matched rule of a message. -/
structure SymbolRow (N Moment : Type) where
  timestamp : Moment
  account : String
  messageId : Option String
  action : String
  messageScore : N
  symbol : String
  score : N

variable {N Moment BatchId : Type} (runtime : Runtime N Moment BatchId)

def clipped (text : String) (limit : ℕ) : String := String.ofList (text.toList.take limit)

/-- `get_text`. -/
def getText (scan : List (String × Library.Json N)) (key : String) (limit : ℕ) :
    Except Refusal (Option String) :=
  match Dict.get scan key with
  | none => .ok none
  | some .null => .ok none
  | some (.text content) => .ok (if content = "" then none else some (clipped content limit))
  | some _ => .error (.skipped s!"{key} must be a string")

/-- The number, if the value is a finite one; the check raises for an int that is too large. -/
def finite (value : Option (Library.Json N)) : Except Refusal (Option N) :=
  match value with
  | some (.number number) =>
      match runtime.isfinite number with
      | none => .error .raised
      | some isFinite => .ok (if isFinite then some number else none)
  | _ => .ok none

/-- `get_number`. -/
def getNumber (value : Option (Library.Json N)) (key : String) : Except Refusal N := do
  match ← finite runtime value with
  | some number => return runtime.float number
  | none => throw (.skipped s!"{key} must be a finite number")

/-- `get_number`, of a value that may be missing. -/
def getOptionalNumber (value : Option (Library.Json N)) (key : String) : Except Refusal (Option N) :=
  match value with
  | none => .ok none
  | some .null => .ok none
  | some value => (getNumber runtime (some value) key).map some

/-- `get_count`. -/
def getCount (value : Option (Library.Json N)) : Except Refusal (Option ℕ) := do
  return (← finite runtime value).map fun number => (runtime.int number).toNat

/-- `parse_time`. -/
def parseTime (value : Option (Library.Json N)) : Except Refusal Moment := do
  match runtime.fromtimestamp (← getNumber runtime value "time") with
  | some moment => return moment
  | none => throw (.skipped "time is out of range")

/-- `get_symbols`; Rspamd writes an empty table as a list. -/
def getSymbols (value : Option (Library.Json N)) : Except Refusal (Dict String N) :=
  match value with
  | none => .ok []
  | some .null => .ok []
  | some (.list []) => .ok []
  | some (.object members) =>
      (members.take symbolLimit).foldlM (fun symbols member => do
        match ← finite runtime (some member.2) with
        | some score => return symbols.set (clipped member.1 (shortLimit * 2)) (runtime.flt4 score)
        | none => return symbols) []
  | some _ => .error (.skipped "symbols must be an object")

/-- **`parse_scan`.** -/
def parseScan (scan : Library.Json N) : Except Refusal (ScanRow N Moment × Dict String N) :=
  match scan with
  | .object scan => do
      let account ← getText scan "user" addressLimit
      let action ← getText scan "action" shortLimit
      match account, action with
      | some account, some action =>
          let row : ScanRow N Moment := {
            timestamp := ← parseTime runtime (Dict.get scan "time")
            account := runtime.lower account
            envelopeFrom := ← getText scan "envelope_from" addressLimit
            headerFrom := ← getText scan "header_from" addressLimit
            messageId := ← getText scan "message_id" textLimit
            queueId := ← getText scan "queue_id" shortLimit
            clientIp := ← getText scan "client_ip" shortLimit
            recipients := ← getCount runtime (Dict.get scan "recipients")
            size := ← getCount runtime (Dict.get scan "size")
            action := action
            score := ← getNumber runtime (Dict.get scan "score") "score"
            scanTime := ← getOptionalNumber runtime (Dict.get scan "scan_time") "scan_time" }
          return (row, ← getSymbols runtime (Dict.get scan "symbols"))
      | _, _ => throw (.skipped "user and action must be set")
  | _ => .error (.skipped "not an object")

/-! ## The rows of a request -/

/-- `get_symbol_rows`. -/
def getSymbolRows (row : ScanRow N Moment) (symbols : Dict String N) : List (SymbolRow N Moment) :=
  symbols.map fun symbol =>
    ⟨row.timestamp, row.account, row.messageId, row.action, row.score, symbol.1, symbol.2⟩

/-- The filter settings, as the site has them. -/
structure Settings (N : Type) where
  mode : String
  score : N

/-- A row of the scans; `scan` is the record it is the row of, and no code reads it. -/
structure StagedScan (N Moment : Type) where
  scan : Library.Json N
  row : ScanRow N Moment
  mode : String
  rejectScore : Option N
  symbols : List Char

/-- What a request makes of its records. -/
structure Rows (N Moment : Type) where
  rows : List (StagedScan N Moment)
  symbolRows : List (SymbolRow N Moment)
  problems : List String

variable [Numeral N]

/-- The row of a record that parses. -/
def stagedScan (settings : Settings N) (scan : Library.Json N) (row : ScanRow N Moment)
    (symbols : Dict String N) : StagedScan N Moment where
  scan := scan
  row := row
  mode := settings.mode
  rejectScore := if settings.mode ≠ "Off" then some (runtime.flt settings.score) else none
  symbols := runtime.orjson.dumps (.object (symbols.map fun symbol => (symbol.1, .number symbol.2)))

/-- The loop of `get_scan_rows`, from an index on; none where the request raises. -/
def scanRowsFrom (settings : Settings N) : ℕ → List (Library.Json N) → Option (Rows N Moment)
  | _, [] => some ⟨[], [], []⟩
  | index, scan :: rest =>
      match parseScan runtime scan with
      | .error .raised => none
      | .error (.skipped problem) =>
          (scanRowsFrom settings (index + 1) rest).map fun rows =>
            { rows with problems := s!"scans[{index}]: {problem}" :: rows.problems }
      | .ok (row, symbols) =>
          (scanRowsFrom settings (index + 1) rest).map fun rows =>
            { rows with
              rows := stagedScan runtime settings scan row symbols :: rows.rows
              symbolRows := getSymbolRows row symbols ++ rows.symbolRows }

/-- **`get_scan_rows`.** -/
def getScanRows (settings : Settings N) (scans : List (Library.Json N)) : Option (Rows N Moment) :=
  scanRowsFrom runtime settings 0 scans

/-- **`get_batch_id`**; none where it raises. -/
def getBatchId (server : String) (scans : List (Library.Json N)) : Option BatchId :=
  if scans.all runtime.fits then
    some (runtime.uuid5 (server.toList ++ ":outbound-scans:".toList ++
      runtime.sha256 (runtime.orjson.dumps (Json.sortKeys (.list scans)))))
  else none

/-- A row of the tables: of the scans, of the matched rules, or of another source. -/
inductive Fields (N Moment : Type)
  | scan (row : StagedScan N Moment)
  | symbol (row : SymbolRow N Moment)
  | other

/-- What an accepted request stages, under the id of its batch. -/
structure Accepted (N Moment BatchId : Type) where
  id : BatchId
  writes : List (TelemetryTable × List (Fields N Moment))
  accepted : ℕ
  skipped : ℕ

/-- **`outbound_scans`**; none where it throws or raises. -/
def outboundScans (server : String) (settings : Settings N) (scans : List (Library.Json N)) :
    Option (Accepted N Moment BatchId) :=
  if scanLimit < scans.length then none
  else do
    let rows ← getScanRows runtime settings scans
    let id ← getBatchId runtime server scans
    some {
      id := id
      writes := [(.outboundScans, rows.rows.map .scan),
        (.outboundScanSymbols, rows.symbolRows.map .symbol)].filter fun write => !write.2.isEmpty
      accepted := rows.rows.length
      skipped := rows.problems.length }

/-! ## What is staged of which record -/

/-- A record that gives a row. -/
def parses (scan : Library.Json N) : Bool :=
  match parseScan runtime scan with
  | .ok _ => true
  | .error _ => false

/-- The rows of the matched rules of some records. -/
def symbolRowsOf (scans : List (Library.Json N)) : List (SymbolRow N Moment) :=
  scans.flatMap fun scan =>
    match parseScan runtime scan with
    | .ok (row, symbols) => getSymbolRows row symbols
    | .error _ => []

/-- The record a row is of, if it is a row of one of the scans. -/
def Fields.record : Fields N Moment → Option (Library.Json N)
  | .scan row => some row.scan
  | _ => none

/-- The tables of the scans. -/
def isScanTable (table : TelemetryTable) : Bool := table = .outboundScans || table = .outboundScanSymbols

/-- The records the rows of a batch are of, in a table of the scans. -/
def recordsIn (scans : List (Library.Json N)) (table : TelemetryTable) : List (Option (Library.Json N)) :=
  match table with
  | .outboundScans => (scans.filter (parses runtime)).map some
  | _ => (symbolRowsOf runtime scans).map fun _ => none

variable {runtime} {settings : Settings N} {scans scans' : List (Library.Json N)} {server : String}

/-- **What is staged of which record**: whatever the settings are, a row of every record that parses. -/
theorem scanRowsFrom_eq {index : ℕ} {rows : Rows N Moment}
    (made : scanRowsFrom runtime settings index scans = some rows) :
    rows.rows.map StagedScan.scan = scans.filter (parses runtime) ∧
      rows.symbolRows = symbolRowsOf runtime scans := by
  induction scans generalizing index rows with
  | nil =>
    obtain rfl := Option.some.inj made
    exact ⟨rfl, rfl⟩
  | cons scan rest ih =>
    rw [scanRowsFrom] at made
    cases parsed : parseScan runtime scan with
    | error refusal =>
      have skips : ¬ parses runtime scan = true := by
        unfold parses
        rw [parsed]
        exact Bool.false_ne_true
      have none : symbolRowsOf runtime (scan :: rest) = symbolRowsOf runtime rest := by
        rw [symbolRowsOf, List.flatMap_cons, parsed]
        rfl
      rw [parsed] at made
      cases refusal with
      | raised => cases made
      | skipped problem =>
        obtain ⟨later, further, rfl⟩ := Option.map_eq_some_iff.mp made
        obtain ⟨scanned, matched⟩ := ih further
        rw [List.filter_cons_of_neg skips, none]
        exact ⟨scanned, matched⟩
    | ok both =>
      have taken : parses runtime scan = true := by
        unfold parses
        rw [parsed]
      have symbols : symbolRowsOf runtime (scan :: rest)
          = getSymbolRows both.1 both.2 ++ symbolRowsOf runtime rest := by
        rw [symbolRowsOf, List.flatMap_cons, parsed]
        rfl
      rw [parsed] at made
      obtain ⟨later, further, rfl⟩ := Option.map_eq_some_iff.mp made
      obtain ⟨scanned, matched⟩ := ih further
      rw [List.filter_cons_of_pos taken, symbols, List.map_cons, scanned, matched]
      exact ⟨rfl, rfl⟩

/-- **The id tells lists of records apart**, whatever order their keys came in. -/
theorem getBatchId_inj (digests : Function.Injective runtime.sha256)
    (names : Function.Injective runtime.uuid5) {id : BatchId} (keys : ∀ scan ∈ scans, Json.keyed scan = true)
    (keys' : ∀ scan ∈ scans', Json.keyed scan = true) (first : getBatchId runtime server scans = some id)
    (second : getBatchId runtime server scans' = some id) :
    scans.map Json.sortKeys = scans'.map Json.sortKeys := by
  unfold getBatchId at first second
  split at first
  · split at second
    · have texts := names ((Option.some.inj first).trans (Option.some.inj second).symm)
      have digest := digests (List.append_cancel_left texts)
      have distinct : ∀ {scans : List (Library.Json N)}, (∀ scan ∈ scans, Json.keyed scan = true) →
          Json.keyed (Json.sortKeys (.list scans)) = true := fun keys =>
        Json.keyed_sortKeys (Json.keyedItems_iff.mpr keys)
      have same := Json.dumps_injective (distinct keys) (distinct keys') digest
      rw [Json.sortKeys_list, Json.sortKeys_list] at same
      exact Library.Json.list.inj same
    · cases second
  · cases first

/-- **What an accepted request stages**: under the id of its records, rows of those that parse. -/
theorem outboundScans_eq {accepted : Accepted N Moment BatchId}
    (taken : outboundScans runtime server settings scans = some accepted) :
    getBatchId runtime server scans = some accepted.id ∧
      (∀ write ∈ accepted.writes, isScanTable write.1 = true ∧
        write.2.map Fields.record = recordsIn runtime scans write.1) ∧
      (recordsIn runtime scans .outboundScans ≠ [] → ∃ rows, (.outboundScans, rows) ∈ accepted.writes) := by
  unfold outboundScans at taken
  split at taken
  · cases taken
  · obtain ⟨rows, made, taken⟩ := Option.bind_eq_some_iff.mp taken
    obtain ⟨id, named, taken⟩ := Option.bind_eq_some_iff.mp taken
    obtain rfl := Option.some.inj taken
    obtain ⟨scanned, matched⟩ := scanRowsFrom_eq made
    have first : (rows.rows.map Fields.scan).map Fields.record = recordsIn runtime scans .outboundScans := by
      rw [recordsIn, ← scanned, List.map_map, List.map_map]
      rfl
    have second : (rows.symbolRows.map Fields.symbol).map Fields.record
        = recordsIn runtime scans .outboundScanSymbols := by
      rw [matched, List.map_map]
      rfl
    refine ⟨named, fun write member => ?_, fun some => ⟨rows.rows.map .scan, ?_⟩⟩
    · obtain ⟨among, -⟩ := List.mem_filter.mp member
      rcases List.mem_cons.mp among with rfl | among
      · exact ⟨rfl, first⟩
      · obtain rfl := List.mem_singleton.mp among
        exact ⟨rfl, second⟩
    · refine List.mem_filter.mpr ⟨List.mem_cons_self, ?_⟩
      rw [← first] at some
      simpa using some

end SuiteCloud.Telemetry.OutboundScans
