/-
**DNS Records and their owners.**

`suite_cloud/suite_cloud/doctype/dns_record/dns_record.py` and `suite_cloud/dns/provider.py`: the rows
owners keep, the records a provider holds, and `reconcile_managed_records`, which makes an owner's rows
exactly what it wants. The loop over the rows the owner has is `stale` (the rows it deletes) and `left`
(what is still wanted after it); the loop over what is left is `insertAll`. Rows are compared by the
equality of their texts.
-/

import Mathlib.Data.List.Infix
import SuiteCloud.Library.Dict
import SuiteCloud.Library.Text

namespace SuiteCloud.Dns

open SuiteCloud.Library

inductive RecordType
  | a
  | aaaa
  | cname
  | mx
  | txt
  deriving DecidableEq

def RecordType.text : RecordType → String
  | .a => "A"
  | .aaaa => "AAAA"
  | .cname => "CNAME"
  | .mx => "MX"
  | .txt => "TXT"

/-- A host and type of a zone. -/
structure Place where
  dnsZone : String
  host : String
  recordType : RecordType
  deriving DecidableEq

inductive Category
  | node
  | ingress
  | egress
  | spf
  | other
  deriving DecidableEq

structure Owner where
  doctype : String
  name : String
  deriving DecidableEq

/-- A DNS Record. -/
structure Row where
  name : ℕ
  place : Place
  value : String
  category : Category
  priority : ℕ
  ttl : ℕ
  managedBy : Option Owner
  deriving DecidableEq

/-- The rows there are: each has a name of its own, given in order. -/
structure Table where
  rows : List Row
  /-- The next name a row gets. -/
  next : ℕ
  unique : (rows.map Row.name).Nodup
  named : ∀ row ∈ rows, row.name < next

/-- A row an owner wants; a TTL of 0 is none. -/
structure Desired where
  place : Place
  value : String
  category : Category
  priority : ℕ := 0
  ttl : ℕ := 0
  deriving DecidableEq

/-- A record at the provider, as Lexicon lists it. -/
structure RemoteRecord where
  place : Place
  content : Option String
  ttl : Option ℕ
  priority : ℕ
  deriving DecidableEq

/-- What the site sets, and what the providers of its zones do. -/
structure Site where
  /-- `str.lower`, which touches no dot. -/
  lower : String → String
  lower_dots : ∀ text, (lower text).toList.count '.' = text.toList.count '.'
  /-- `get_default_zone`. -/
  defaultZone : Option String
  defaultTtl : String → ℕ
  /-- `get_dns_provider` returns one for the zone. -/
  hasProvider : String → Bool
  /-- The zone's provider is one of `MX_PROVIDERS`. -/
  supportsMx : String → Bool
  /-- The content a provider keeps for a record of a type and value. -/
  stored : RecordType → String → String

/-- A site whose one zone has a provider, which keeps contents as they are. -/
def oneZone : Site where
  lower := asciiLower
  lower_dots := asciiLower_dots
  defaultZone := some "example.com"
  defaultTtl := fun _ => 300
  hasProvider := fun _ => true
  supportsMx := fun _ => true
  stored := fun _ value => value

variable (site : Site)

/-! ### The provider -/

/-- `normalize_value`. -/
def normalizeValue (value : Option String) : String :=
  site.lower (rstripOf (· == '.') (stripOf (· == '"') (strip (value.getD ""))))

/-- `read_dns_records`. -/
def readDnsRecords (remote : List RemoteRecord) (place : Place) : List RemoteRecord :=
  remote.filter fun record => record.place = place

/-- The provider's record has this value. -/
def hasValue (value : String) (record : RemoteRecord) : Bool :=
  normalizeValue site record.content = normalizeValue site (some value)

/-- `find_dns_record`. -/
def findDnsRecord (remote : List RemoteRecord) (place : Place) (value : String) : Option RemoteRecord :=
  (readDnsRecords remote place).find? (hasValue site value)

/-- The contents `delete_dns_record` deletes one after the other. -/
def contentsToDelete (remote : List RemoteRecord) (place : Place) (value : String) :
    List (Option String) :=
  ((readDnsRecords remote place).filter (hasValue site value)).map RemoteRecord.content

/-- One of its deletes: by type, name and content. -/
def deleteContent (remote : List RemoteRecord) (place : Place) (content : Option String) :
    List RemoteRecord :=
  remote.filter fun record => ¬ (record.place = place ∧ record.content = content)

/-- `assert_supports_mx` does not raise. -/
def mxAllowed (place : Place) : Bool := place.recordType ≠ .mx || site.supportsMx place.dnsZone

/-! ### Hosts -/

/-- `relative_host`; it throws outside the zone. -/
def relativeHost (fqdn zone : String) : Option String :=
  if ("." ++ zone).toList <:+ fqdn.toList then
    some (String.ofList (fqdn.toList.take (fqdn.toList.length - ("." ++ zone).toList.length)))
  else none

theorem relativeHost_append (host zone : String) :
    relativeHost (host ++ "." ++ zone) zone = some host := by
  have chars : (host ++ "." ++ zone).toList = host.toList ++ ("." ++ zone).toList := by
    simp only [String.toList_append, List.append_assoc]
  rw [relativeHost, chars, if_pos (List.suffix_append _ _), List.length_append, Nat.add_sub_cancel,
    List.take_left, String.ofList_toList]

/-! ### The rows -/

/-- What a row the owner has is looked up by. -/
def Row.key (row : Row) : Place × String := (row.place, strip row.value)

instance (key : Place × String) (keys : List (Place × String)) : Decidable (key ∈ keys) := inferInstance

/-- What a row the owner wants is looked up by. -/
def Desired.key (row : Desired) : Place × String :=
  ({ row.place with host := site.lower row.place.host }, strip row.value)

/-- The `wanted` of `reconcile_managed_records`. -/
def wantedRows (desired : List Desired) : Dict (Place × String) Desired :=
  .ofList (desired.map fun row => (row.key site, row))

/-- The `existing` of `reconcile_managed_records`. -/
def managedRows (rows : List Row) (owner : Owner) : List Row :=
  rows.filter fun row => row.managedBy = some owner

/-- **The rows the first loop deletes.** -/
def stale : List Row → Dict (Place × String) Desired → List Row
  | [], _ => []
  | row :: rest, wanted =>
      if row.key ∈ wanted.keys then stale rest (wanted.pop row.key) else row :: stale rest wanted

/-- **What is wanted after the first loop.** -/
def left : List Row → Dict (Place × String) Desired → Dict (Place × String) Desired
  | [], wanted => wanted
  | row :: rest, wanted =>
      if row.key ∈ wanted.keys then left rest (wanted.pop row.key) else left rest wanted

/-- The row goes, with its name. -/
def eraseRow (rows : List Row) (row : Row) : List Row := rows.filter fun other => other.name ≠ row.name

def eraseRows (rows gone : List Row) : List Row := gone.foldl eraseRow rows

/-- `still_wanted` of `delete_from_provider`. -/
def stillWanted (rows : List Row) (row : Row) : Bool :=
  rows.any fun other => other.name ≠ row.name ∧ other.place = row.place ∧ other.value = row.value

/-- `validate_duplicate_record` finds one. -/
def isDuplicate (rows : List Row) (row : Row) : Bool :=
  rows.any fun other => other.name ≠ row.name ∧ other.place = row.place ∧ other.value = row.value ∧
    other.managedBy = row.managedBy

/-- The new document with what `validate` sets. -/
def newRow (owner : Owner) (name : ℕ) (zone : String) (row : Desired) : Row where
  name := name
  place := ⟨zone, site.lower (strip row.place.host), row.place.recordType⟩
  value := strip row.value
  category := row.category
  priority := row.priority
  ttl := if row.ttl = 0 then site.defaultTtl zone else row.ttl
  managedBy := some owner

/-- The zone a new row gets. -/
def zoneOf (row : Desired) : String :=
  if row.place.dnsZone = "" then site.defaultZone.getD "" else row.place.dnsZone

/-- Why a document is not inserted. -/
inductive Refused
  | noZone
  | duplicate (doc : Row)
  /-- Frappe's own check of the fields a document must have. -/
  | mandatory
  deriving DecidableEq

/-- The text of a refusal of `validate`. -/
def Refused.message : Refused → Option String
  | .noZone => some "Create a DNS Zone before adding DNS Records."
  | .duplicate doc =>
      let type := doc.place.recordType.text
      some s!"DNS Record {doc.place.host} {type} {doc.value} already exists."
  | .mandatory => none

/-- `DNSRecord.insert`. -/
def insertRow (owner : Owner) (name : ℕ) (rows : List Row) (row : Desired) : Except Refused Row :=
  let doc := newRow site owner name (zoneOf site row) row
  if zoneOf site row = "" then .error .noZone
  else if isDuplicate rows doc then .error (.duplicate doc)
  else if doc.place.host = "" ∨ doc.value = "" then .error .mandatory
  else .ok doc

/-- **The second loop**: the rows afterwards, and the new ones. -/
def insertAll (owner : Owner) : ℕ → List Row → Dict (Place × String) Desired →
    Except Refused (List Row × List Row)
  | _, rows, [] => .ok (rows, [])
  | name, rows, (_, row) :: rest =>
      match insertRow site owner name rows row with
      | .error refused => .error refused
      | .ok doc =>
          match insertAll owner (name + 1) (rows ++ [doc]) rest with
          | .error refused => .error refused
          | .ok (after, docs) => .ok (after, doc :: docs)

end SuiteCloud.Dns
