/-
**A cluster's zone file.**

`suite_cloud/mail/cluster/zone.py`: the records Stalwart lists for a domain, as the rows a tenant has to
publish. A text is the list of its characters; digits are those of ASCII.

* `logicalLines` — the lines of the file, with what parentheses hold joined into one.
* `matchRecordLine`, `parseZoneFile` — the records.
* `unquote`, `toRow`, `buildDomainRecords` — the rows; none where the code raises.
-/

import Mathlib.Data.Char
import Mathlib.Data.List.Infix
import Mathlib.Data.List.Lex
import Mathlib.Data.List.ReduceOption
import Mathlib.Data.List.Sort
import SuiteCloud.Library.Lines
import SuiteCloud.Library.Shlex

namespace SuiteCloud.Mail.Cluster.Zone

open SuiteCloud.Library

/-! ## Groups of records -/

inductive Category
  | spf
  | dkim
  | dmarc
  | mx
  | mtaSts
  | tlsRpt
  | srv
  | autoconfig
  | autodiscover
  | uaAutoConfig
  deriving DecidableEq

structure Group where
  key : String
  isMandatory : Bool
  categories : List Category

/-- `GROUPS`. -/
def groups : List Group :=
  [⟨"authentication_records", true, [.spf, .dkim, .dmarc]⟩,
    ⟨"routing_records", false, [.mx]⟩,
    ⟨"transport_security_records", false, [.mtaSts, .tlsRpt]⟩,
    ⟨"discovery_records", false, [.srv]⟩,
    ⟨"autoconfig_records", false, [.autoconfig, .autodiscover, .uaAutoConfig]⟩]

/-- `GROUP_OF`. -/
def groupOf (category : Category) : Option Group := groups.find? fun group => category ∈ group.categories

/-- `MANDATORY`. -/
def mandatory : List Category := (groups.filter (·.isMandatory)).flatMap (·.categories)

/-- `CERTIFICATE_BOUND`. -/
def certificateBound : List Category := [.mtaSts, .autoconfig, .autodiscover, .uaAutoConfig]

/-- The place of a category's group, and its place in the group. -/
def groupIndex (category : Category) : ℕ := groups.findIdx fun group => category ∈ group.categories

def categoryIndex (category : Category) : ℕ :=
  (groupOf category).elim 0 fun group => group.categories.idxOf category

theorem groupOf_isSome (category : Category) : (groupOf category).isSome = true := by
  cases category <;> rfl

/-! ## Lines -/

/-- `str.strip`. -/
def stripped (text : List Char) : List Char := (strip (String.ofList text)).toList

/-- `str.rstrip(".")`. -/
def withoutDots (text : List Char) : List Char := (rstripOf (· == '.') (String.ofList text)).toList

/-- `_strip_comment`, from inside a quoted string or outside. -/
def stripCommentFrom (quoted : Bool) : List Char → List Char
  | [] => []
  | c :: rest =>
      if c = '"' then c :: stripCommentFrom (!quoted) rest
      else if c = ';' ∧ quoted = false then []
      else c :: stripCommentFrom quoted rest

/-- **`_strip_comment`.** -/
def stripComment (line : List Char) : List Char := stripCommentFrom false line

def parenBalanceFrom (quoted : Bool) : List Char → ℤ
  | [] => 0
  | c :: rest =>
      if c = '"' then parenBalanceFrom (!quoted) rest
      else if quoted = false ∧ c = '(' then parenBalanceFrom quoted rest + 1
      else if quoted = false ∧ c = ')' then parenBalanceFrom quoted rest - 1
      else parenBalanceFrom quoted rest

/-- **`_paren_balance`.** -/
def parenBalance (line : List Char) : ℤ := parenBalanceFrom false line

/-- The loop of `_drop_parens`. -/
def withoutParensFrom (quoted : Bool) : List Char → List Char
  | [] => []
  | c :: rest =>
      let quoted := if c = '"' then !quoted else quoted
      if quoted = true ∨ (c ≠ '(' ∧ c ≠ ')') then c :: withoutParensFrom quoted rest
      else withoutParensFrom quoted rest

/-- **`_drop_parens`.** -/
def dropParens (line : List Char) : List Char := squeeze (withoutParensFrom false line)

/-- What `_logical_lines` yields for the lines of a record. -/
def joinedLine (pending : List (List Char)) : List Char :=
  let joined := [' '].intercalate pending
  if '(' ∈ joined then dropParens joined else joined

/-- The loop of `_logical_lines`, with the lines that wait for a closing parenthesis. -/
def logicalLinesFrom (pending : List (List Char)) (depth : ℤ) : List (List Char) → List (List Char)
  | [] => []
  | raw :: rest =>
      let line := stripped (stripComment raw)
      if line = [] then logicalLinesFrom pending depth rest
      else if 0 < depth + parenBalance line then
        logicalLinesFrom (pending ++ [line]) (depth + parenBalance line) rest
      else joinedLine (pending ++ [line]) :: logicalLinesFrom [] 0 rest

/-- **`_logical_lines`.** -/
def logicalLines (text : List Char) : List (List Char) := logicalLinesFrom [] 0 (splitlines text)

/-! ## Records -/

structure ZoneRecord where
  name : List Char
  ttl : Option ℕ
  type : List Char
  rdata : List Char
  deriving DecidableEq

/-- All characters of a kind at the beginning, at least one, and what follows. -/
def takeSome (kind : Char → Bool) (text : List Char) : Option (List Char × List Char) :=
  if text.takeWhile kind = [] then none else some (text.takeWhile kind, text.dropWhile kind)

/-- `(?P<type>[A-Z]+)\s+(?P<rdata>.+)$`; where only white space follows the type, the last of it is the
data. -/
def matchType (text : List Char) : Option (List Char × List Char) := do
  let (type, rest) ← takeSome Char.isUpper text
  let (blanks, rest) ← takeSome isSpace rest
  if rest ≠ [] then some (type, rest)
  else if 2 ≤ blanks.length then some (type, blanks.drop (blanks.length - 1))
  else none

/-- `(?:IN\s+)?`, and what follows; it is left out where nothing follows it. -/
def matchClass (text : List Char) : Option (List Char × List Char) :=
  (match text with
    | 'I' :: 'N' :: rest => (takeSome isSpace rest).bind fun blanks => matchType blanks.2
    | _ => none).or (matchType text)

/-- `(?:(?P<ttl>\d+)\s+)?`, and what follows. -/
def matchTtl (text : List Char) : Option (List Char × List Char) := do
  let (digits, rest) ← takeSome Char.isDigit text
  let (_, rest) ← takeSome isSpace rest
  some (digits, rest)

/-- **`RECORD_LINE.match`**, and the record made of it. No class and no type begins with a digit, so what
matches as a TTL is one. -/
def matchRecordLine (lower : List Char → List Char) (line : List Char) : Option ZoneRecord := do
  let (name, rest) ← takeSome (!isSpace ·) line
  let (_, rest) ← takeSome isSpace rest
  let (ttl, rest) := match matchTtl rest with
    | some (digits, rest) => (some (Nat.ofDigitChars 10 digits 0), rest)
    | none => (none, rest)
  let (type, rdata) ← matchClass rest
  some ⟨lower (withoutDots name), ttl, type, stripped rdata⟩

/-- **`parse_zone_file`.** -/
def parseZoneFile (lower : List Char → List Char) (text : List Char) : List ZoneRecord :=
  ((logicalLines text).filter fun line => line.head? ≠ some '$').filterMap (matchRecordLine lower)

/-! ## Rows -/

/-- A row of Mail Domain DNS Record. -/
structure Row where
  recordType : List Char
  host : List Char
  ttl : ℕ
  priority : ℤ
  weight : ℤ
  port : ℤ
  value : List Char
  category : Category
  group : String
  isMandatory : Bool
  deriving DecidableEq

/-- `_relative_host`. -/
def relativeHost (name domain : List Char) : Option (List Char) :=
  if name = domain then some ['@']
  else if ('.' :: domain).isSuffixOf name then some (name.take (name.length - (domain.length + 1)))
  else none

/-- `_unquote`. -/
def unquote (rdata : List Char) : List Char :=
  match shlexSplit rdata with
  | some parts => parts.flatten
  | none => (stripOf (· == '"') (String.ofList rdata)).toList

/-- `int` of a text; none where it raises. -/
def parseInt (text : List Char) : Option ℤ :=
  let (negative, digits) := match stripped text with
    | '-' :: rest => (true, rest)
    | '+' :: rest => (false, rest)
    | rest => (false, rest)
  if (digits.splitOn '_').all fun digits => digits ≠ [] && digits.all Char.isDigit then
    let value : ℤ := Nat.ofDigitChars 10 (digits.filter (· ≠ '_')) 0
    some (if negative then -value else value)
  else none

/-- What a record's type makes of its data. -/
structure Content where
  priority : ℤ
  weight : ℤ
  port : ℤ
  value : List Char
  category : Category

/-- The value and the category of a TXT record. -/
def txtContent (host text spfInclude : List Char) : Option (List Char × Category) :=
  if host = ['@'] ∧ "v=spf1".toList.isPrefixOf text then
    some ("v=spf1 include:".toList ++ spfInclude ++ " -all".toList, .spf)
  else if "_domainkey".toList <:+: host then some (text, .dkim)
  else if host = "_dmarc".toList then some (text, .dmarc)
  else if host = "_smtp._tls".toList then some (text, .tlsRpt)
  else if host = "_mta-sts".toList then some (text, .mtaSts)
  else if host = "_ua-auto-config".toList then some (text, .uaAutoConfig)
  else none

def cnameCategory (host : List Char) : Option Category :=
  if host = "mta-sts".toList then some .mtaSts
  else if host = "autoconfig".toList then some .autoconfig
  else if host = "autodiscover".toList then some .autodiscover
  else if host = "ua-auto-config".toList then some .uaAutoConfig
  else none

/-- The content of a record: none where it raises, and no content where the domain does not need it. -/
def contentOf (record : ZoneRecord) (host spfInclude : List Char) : Option (Option Content) :=
  if record.type = "MX".toList then do
    -- `rdata.partition(" ")`.
    let preference := record.rdata.takeWhile (· ≠ ' ')
    let target := (record.rdata.dropWhile (· ≠ ' ')).tail
    let priority ← if preference = [] then some 0 else parseInt preference
    some (some ⟨priority, 0, 0, withoutDots (stripped target), .mx⟩)
  else if record.type = "TXT".toList then
    some ((txtContent host (unquote record.rdata) spfInclude).map fun found => ⟨0, 0, 0, found.1, found.2⟩)
  else if record.type = "CNAME".toList then
    some ((cnameCategory host).map fun category => ⟨0, 0, 0, withoutDots record.rdata, category⟩)
  else if record.type = "SRV".toList then
    match wordsOf record.rdata with
    | [priority, weight, port, target] => do
        some (some ⟨← parseInt priority, ← parseInt weight, ← parseInt port, withoutDots target, .srv⟩)
    | _ => none
  else some none

/-- The row of a content. -/
def rowOf (type host : List Char) (ttl : Option ℕ) (defaultTtl : ℕ) (content : Content) : Option Row := do
  let group ← groupOf content.category
  some {
    recordType := type
    host := host
    -- `record.ttl or default_ttl`.
    ttl := if ttl.getD 0 = 0 then defaultTtl else ttl.getD 0
    priority := content.priority
    weight := content.weight
    port := content.port
    value := content.value
    category := content.category
    group := group.key
    isMandatory := content.category ∈ mandatory }

/-- **`_to_row`.** -/
def toRow (domain spfInclude : List Char) (defaultTtl : ℕ) (record : ZoneRecord) : Option (Option Row) :=
  match relativeHost record.name domain with
  | none => some none
  | some host => do
      match ← contentOf record host spfInclude with
      | none => some none
      | some content => (rowOf record.type host record.ttl defaultTtl content).map some

/-- In group order, and by host. -/
def comesBefore (row other : Row) : Prop :=
  groupIndex row.category < groupIndex other.category ∨
    (groupIndex row.category = groupIndex other.category ∧
      (categoryIndex row.category < categoryIndex other.category ∨
        (categoryIndex row.category = categoryIndex other.category ∧ row.host ≤ other.host)))

instance : DecidableRel comesBefore := fun _ _ => inferInstanceAs (Decidable (_ ∨ _))

/-- The rows that are handed out, in order. -/
def handedOut (includeClientDiscovery : Bool) (rows : List Row) : List Row :=
  (rows.filter fun row => includeClientDiscovery || row.category ∉ certificateBound).insertionSort comesBefore

/-- **`build_domain_records`.** -/
def buildDomainRecords (lower : List Char → List Char) (domain zoneFile spfInclude : List Char)
    (includeClientDiscovery : Bool) (defaultTtl : ℕ) : Option (List Row) := do
  let rows ← (parseZoneFile lower zoneFile).mapM (toRow domain spfInclude defaultTtl)
  some (handedOut includeClientDiscovery rows.reduceOption)

end SuiteCloud.Mail.Cluster.Zone
