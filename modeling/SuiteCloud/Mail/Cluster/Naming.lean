/-
**Host names under a cluster, over every run of creating and deleting.**

`suite_cloud/mail/cluster/naming.py`, with the documents that take their names from it: Stalwart Clusters
of a region and zone, Stalwart Nodes, Egress Gateways and Egress IP Pools of a cluster, and the address
rows of a pool. A name is a number past the highest one that is in use when it is given.

* `nextLabel`, `nextHostname`, `nextPoolName`, `assignEhloHostnames`, `nextClusterLabel` — the source's
  functions.
* `NeverTwice` — no two documents or address rows were ever given the same name.
* `Meets` — the number last given is still in use where the next one is taken.
* `names_given_once` — **a name is given once** in a run whose every step meets that.
* `node_inherits_name` — the second node of a cluster whose first was deleted.

Each step is one committed transaction. What else may refuse a save or a delete (an address that is no
IP, a node that still serves) decides no name.
-/

import SuiteCloud.Library.Numbered
import SuiteCloud.Library.Transition

namespace SuiteCloud.Mail.Cluster.Naming

open SuiteCloud.Library

/-! ## The names -/

/-- `next_label`. -/
def nextLabel (stem : String) (taken : List String) : String :=
  stem ++ toString (highest stem taken + 1)

/-- `first_label`. -/
def firstLabel (hostname : String) : String := String.ofList (hostname.toList.takeWhile (· ≠ '.'))

/-- A region's first cluster counts as its number 1. -/
def numbered (region label : String) : String := if label = region then region ++ "-1" else label

/-- **`next_cluster_label`** over the labels of the region's clusters in the zone. -/
def nextClusterLabel (region : String) (taken : List String) : String :=
  if taken = [] then region else nextLabel (region ++ "-") (taken.map (numbered region))

example : nextLabel "n" ["n1", "n3"] = "n4" := by decide
example : nextClusterLabel "bom" ["bom"] = "bom-2" := by decide

/-! ## The documents -/

/-- The form a domain name is stored in: lower case, with neither white space nor a dot at its end. -/
structure Settled (name : String) : Prop where
  lower : ∀ c ∈ name.toList, (!c.isUpper) = true
  ends : ∃ c ∈ name.toList.getLast?, isSpace c = false ∧ c ≠ '.'

/-- A DNS Zone, by its name. -/
structure Zone where
  name : String
  settled : Settled name
  deriving DecidableEq

/-- A Mail Region; `CODE`. -/
structure Region where
  code : String
  plain : ∀ c ∈ code.toList, (c.isLower || c.isDigit) = true
  deriving DecidableEq

structure StalwartCluster where
  dnsZone : Zone
  region : Region
  label : String
  deriving DecidableEq

/-- The cluster's name too, and its default domain. -/
def StalwartCluster.hostname (cluster : StalwartCluster) : String :=
  "mail." ++ cluster.label ++ "." ++ cluster.dnsZone.name

/-- The servers of a cluster. -/
inductive Kind
  | node
  | gateway
  deriving DecidableEq

/-- `NODE_PREFIX` and `GATEWAY_PREFIX`. -/
def Kind.stem : Kind → String
  | .node => "n"
  | .gateway => "g"

/-- `POOL_PREFIX`. -/
def poolStem : String := "p"

/-- A Stalwart Node or an Egress Gateway, whose name is its host name. -/
structure Server where
  kind : Kind
  cluster : String
  hostname : String
  deriving DecidableEq

/-- An address row. `id` tells rows apart for good. -/
structure PoolAddress where
  id : ℕ
  ehloHostname : String
  deriving DecidableEq

/-- The loop of `assign_ehlo_hostnames`; `""` is no name. -/
def assignLoop (stem defaultDomain : String) : List String → List PoolAddress → List PoolAddress
  | _, [] => []
  | taken, row :: rest =>
    if row.ehloHostname ≠ "" then row :: assignLoop stem defaultDomain taken rest
    else
      let label := nextLabel stem taken
      { row with ehloHostname := label ++ "." ++ defaultDomain } ::
        assignLoop stem defaultDomain (taken ++ [label]) rest

/-- `taken` as `assign_ehlo_hostnames` begins with it. -/
def namedLabels (rows : List PoolAddress) : List String :=
  (rows.filter (·.ehloHostname ≠ "")).map (firstLabel ·.ehloHostname)

/-- **`assign_ehlo_hostnames`.** -/
def assignEhloHostnames (poolName defaultDomain : String) (rows : List PoolAddress) :
    List PoolAddress :=
  assignLoop (poolName ++ "-") defaultDomain (namedLabels rows) rows

example : (assignEhloHostnames "p1" "d" [⟨0, "p1-2.d"⟩, ⟨1, ""⟩, ⟨2, ""⟩]).map
    PoolAddress.ehloHostname = ["p1-2.d", "p1-3.d", "p1-4.d"] := by decide

/-- The form a host name is stored in. -/
def normalise (hostname : String) : String :=
  rstripOf (· == '.') (asciiLower (strip hostname))

/-- It is a single label under the domain. -/
def isSingleLabel (defaultDomain hostname : String) : Bool :=
  let suffix := ("." ++ defaultDomain).toList
  suffix.isSuffixOf hostname.toList &&
    decide ('.' ∉ hostname.toList.take (hostname.toList.length - suffix.length))

/-- `validate_addresses`, as far as it names the rows. -/
def validateAddresses (poolName defaultDomain : String) (rows : List PoolAddress) :
    Option (List PoolAddress) :=
  let stored := (assignEhloHostnames poolName defaultDomain rows).map fun row =>
    { row with ehloHostname := normalise row.ehloHostname }
  if stored.all fun row => isSingleLabel defaultDomain row.ehloHostname then some stored else none

/-- An Egress IP Pool, whose name is its host name. -/
structure EgressIPPool where
  cluster : String
  poolName : String
  addresses : List PoolAddress
  deriving DecidableEq

def EgressIPPool.hostname (pool : EgressIPPool) : String := pool.poolName ++ ".out." ++ pool.cluster

/-- An address row of a save: the row it is, unless it is new, and the name it is sent with. -/
structure SentAddress where
  row : Option ℕ
  ehloHostname : String
  deriving DecidableEq

/-- What is numbered on its own. -/
inductive Series
  | clusters (dnsZone : Zone) (region : Region)
  | servers (kind : Kind) (cluster : String)
  | pools (cluster : String)
  | addresses (cluster poolName : String)
  deriving DecidableEq

/-- A name that was given: to which document or row, and in which series. A pool's label is its name. -/
structure Given where
  holder : ℕ
  series : Series
  label : String
  hostname : String
  deriving DecidableEq

/-- The documents there are, how many documents and rows were created, and every name given. -/
structure State where
  clusters : List StalwartCluster
  servers : List Server
  pools : List EgressIPPool
  created : ℕ
  given : List Given

/-- No document yet. -/
def State.empty : State := ⟨[], [], [], 0, []⟩

/-! ## Creating and deleting -/

inductive Action
  /-- A Stalwart Cluster; `label` is what it is sent with, `""` for none. -/
  | insertCluster (dnsZone : Zone) (region : Region) (label : String)
  | deleteCluster (name : String)
  | insertServer (kind : Kind) (cluster : String)
  | deleteServer (kind : Kind) (name : String)
  | insertPool (cluster : String) (rows : List SentAddress)
  | savePool (name : String) (rows : List SentAddress)
  | deletePool (name : String)

variable (s : State)

/-- The labels of a region's clusters in a zone. -/
def State.clusterLabels (dnsZone : Zone) (region : Region) : List String :=
  (s.clusters.filter fun cluster => cluster.dnsZone = dnsZone ∧ cluster.region = region).map
    StalwartCluster.label

/-- The first labels of a cluster's nodes, or gateways. -/
def State.serverLabels (kind : Kind) (cluster : String) : List String :=
  (s.servers.filter fun server => server.kind = kind ∧ server.cluster = cluster).map
    fun server => firstLabel server.hostname

def State.poolNames (cluster : String) : List String :=
  (s.pools.filter (·.cluster = cluster)).map EgressIPPool.poolName

/-- **`next_hostname`**; a cluster's default domain is its name. -/
def nextHostname (kind : Kind) (cluster : String) : String :=
  nextLabel kind.stem (s.serverLabels kind cluster) ++ "." ++ cluster

/-- **`next_pool_name`.** -/
def nextPoolName (cluster : String) : String := nextLabel poolStem (s.poolNames cluster)

/-- `POOL_NAME`; a name that is handed out holds a letter and digits. -/
def poolNameFits (poolName : String) : Bool := poolName.length ≤ 8

/-- The rows of a save, each as the row it is; a new row is told apart by when it was created. -/
def sentRows (stored : List PoolAddress) (rows : List SentAddress) : List PoolAddress :=
  rows.mapIdx fun i sent =>
    { id := (sent.row.filter (· ∈ stored.map PoolAddress.id)).getD (s.created + 1 + i)
      ehloHostname := sent.ehloHostname }

/-- The name an address row has. -/
def rowEntry (cluster poolName : String) (row : PoolAddress) : Given where
  holder := row.id
  series := .addresses cluster poolName
  label := firstLabel row.ehloHostname
  hostname := row.ehloHostname

/-- An Egress IP Pool as it is stored after a save. -/
def State.withPool (pool : EgressIPPool) (others : List EgressIPPool) (given : List Given) (rows : ℕ) :
    State :=
  { s with
    pools := pool :: others
    created := s.created + 1 + rows
    given := pool.addresses.map (rowEntry pool.cluster pool.poolName) ++ given }

/-- **One transaction.** -/
def step : Action → Option State
  | .insertCluster dnsZone region label =>
    let label := if label ≠ "" then label else nextClusterLabel region.code (s.clusterLabels dnsZone region)
    let cluster : StalwartCluster := ⟨dnsZone, region, label⟩
    if cluster.hostname ∈ s.clusters.map StalwartCluster.hostname then none
    else some
      { s with
        clusters := cluster :: s.clusters
        created := s.created + 1
        given := ⟨s.created, .clusters dnsZone region, numbered region.code label, cluster.hostname⟩ ::
          s.given }
  | .deleteCluster name =>
    -- `on_trash`: no node, gateway or pool of the cluster is left.
    if s.servers.any (·.cluster = name) ∨ s.pools.any (·.cluster = name) then none
    else some { s with clusters := s.clusters.filter (·.hostname ≠ name) }
  | .insertServer kind cluster =>
    let hostname := nextHostname s kind cluster
    if cluster ∉ s.clusters.map StalwartCluster.hostname ∨
        s.servers.any (fun server => server.kind = kind ∧ server.hostname = hostname) then none
    else some
      { s with
        servers := ⟨kind, cluster, hostname⟩ :: s.servers
        created := s.created + 1
        given := ⟨s.created, .servers kind cluster, firstLabel hostname, hostname⟩ :: s.given }
  | .deleteServer kind name =>
    some { s with servers := s.servers.filter fun server => ¬ (server.kind = kind ∧ server.hostname = name) }
  | .insertPool cluster rows =>
    let poolName := nextPoolName s cluster
    if cluster ∉ s.clusters.map StalwartCluster.hostname ∨ poolNameFits poolName = false then none
    else
      (validateAddresses poolName cluster (sentRows s [] rows)).bind fun addresses =>
        let pool : EgressIPPool := ⟨cluster, poolName, addresses⟩
        if pool.hostname ∈ s.pools.map EgressIPPool.hostname then none
        else
          let entry : Given := ⟨s.created, .pools cluster, poolName, pool.hostname⟩
          some (s.withPool pool s.pools (entry :: s.given) rows.length)
  | .savePool name rows =>
    (s.pools.find? (·.hostname = name)).bind fun pool =>
      (validateAddresses pool.poolName pool.cluster (sentRows s pool.addresses rows)).map fun addresses =>
        s.withPool { pool with addresses := addresses } (s.pools.filter (·.hostname ≠ name)) s.given
          rows.length
  | .deletePool name => some { s with pools := s.pools.filter (·.hostname ≠ name) }

/-! ## What is proved -/

/-- **No two documents or address rows were given the same name**: a host name, the name a row greets with
among them, or the name of a pool in its cluster. -/
structure NeverTwice : Prop where
  hostname : ∀ a ∈ s.given, ∀ b ∈ s.given, a.hostname = b.hostname → a.holder = b.holder
  poolName : ∀ a ∈ s.given, ∀ b ∈ s.given, ∀ cluster, a.series = .pools cluster →
    b.series = .pools cluster → a.label = b.label → a.holder = b.holder

/-- What precedes the number. -/
def Series.stem : Series → String
  | .clusters _ region => region.code ++ "-"
  | .servers kind _ => kind.stem
  | .pools _ => poolStem
  | .addresses _ poolName => poolName ++ "-"

/-- The labels of a series that were given so far. -/
def labelsOf (given : List Given) (series : Series) : List String :=
  (given.filter (·.series = series)).map Given.label

/-- The highest number of a series that was given is no higher than the ones in use. -/
def InUse (given : List Given) (series : Series) (taken : List String) : Prop :=
  highest series.stem (labelsOf given series) ≤ highest series.stem taken

/-- Each row a pool is saved with has the name it was given, or none, and then the last number of the pool's
rows is of a row that is kept. -/
def RowsMeet (pool : EgressIPPool) (rows : List SentAddress) : Prop :=
  (∀ sent ∈ rows, sent.ehloHostname = "" ∨
    ∃ row ∈ pool.addresses, sent.row = some row.id ∧ sent.ehloHostname = row.ehloHostname) ∧
  ((∃ sent ∈ rows, sent.ehloHostname = "") →
    InUse s.given (.addresses pool.cluster pool.poolName) (namedLabels (sentRows s pool.addresses rows)))

/-- **The last number of a series is still in use** where its next one is given, and what is sent to be
named has no name but the one it was given. -/
def Meets : Action → Prop
  | .insertCluster dnsZone region label =>
    label = "" ∧ InUse s.given (.clusters dnsZone region)
      ((s.clusterLabels dnsZone region).map (numbered region.code))
  | .insertServer kind cluster => InUse s.given (.servers kind cluster) (s.serverLabels kind cluster)
  | .insertPool cluster rows =>
    (∀ sent ∈ rows, sent.ehloHostname = "") ∧ InUse s.given (.pools cluster) (s.poolNames cluster)
  | .savePool name rows => ∀ pool ∈ s.pools.find? (·.hostname = name), RowsMeet s pool rows
  | .deleteCluster _ | .deleteServer _ _ | .deletePool _ => True

instance decidableInUse (given : List Given) (series : Series) (taken : List String) :
    Decidable (InUse given series taken) :=
  inferInstanceAs (Decidable (_ ≤ _))

instance decidableRowsMeet (pool : EgressIPPool) (rows : List SentAddress) :
    Decidable (RowsMeet s pool rows) :=
  inferInstanceAs (Decidable (_ ∧ (_ → _)))

instance decidableMeets : ∀ action, Decidable (Meets s action)
  | .insertCluster _ _ _ => inferInstanceAs (Decidable (_ ∧ _))
  | .insertServer _ _ => inferInstanceAs (Decidable (InUse _ _ _))
  | .insertPool _ _ => inferInstanceAs (Decidable (_ ∧ _))
  | .savePool name rows =>
    inferInstanceAs (Decidable (∀ pool ∈ s.pools.find? (·.hostname = name), RowsMeet s pool rows))
  | .deleteCluster _ | .deleteServer _ _ | .deletePool _ => isTrue trivial

/-! ### Labels -/

section Labels

variable {s} {label domain : String} {n : ℕ}

/-- A label of lower case letters, digits and hyphens. -/
def isPlain (c : Char) : Bool := c.isLower || c.isDigit || c == '-'

def Plain (label : String) : Prop := ∀ c ∈ label.toList, isPlain c = true

theorem isPlain_facts {c : Char} (plain : isPlain c = true) :
    (!c.isUpper) = true ∧ c ≠ '.' ∧ isSpace c = false := by
  have range : (97 ≤ c.toNat ∧ c.toNat ≤ 122) ∨ (48 ≤ c.toNat ∧ c.toNat ≤ 57) ∨ c.toNat = 45 := by
    rw [isPlain, Bool.or_eq_true, Bool.or_eq_true, beq_iff_eq] at plain
    rcases plain with (lower | digit) | rfl
    · obtain ⟨least, most⟩ := Bool.and_eq_true_iff.mp lower
      exact Or.inl ⟨of_decide_eq_true least, of_decide_eq_true most⟩
    · obtain ⟨least, most⟩ := Bool.and_eq_true_iff.mp digit
      exact Or.inr (Or.inl ⟨of_decide_eq_true least, of_decide_eq_true most⟩)
    · exact Or.inr (Or.inr rfl)
  refine ⟨?_, ?_, ?_⟩
  · have outside : ¬ (65 ≤ c.toNat ∧ c.toNat ≤ 90) := by omega
    rw [Bool.not_eq_true']
    exact decide_eq_false outside
  · rintro rfl
    revert range
    decide
  · simp only [isSpace, Bool.or_eq_false_iff, decide_eq_false_iff_not, List.mem_cons,
      List.not_mem_nil, or_false]
    omega

theorem Plain.append {left right : String} (first : Plain left) (second : Plain right) :
    Plain (left ++ right) := by
  intro c member
  rw [String.toList_append, List.mem_append] at member
  rcases member with here | there
  · exact first c here
  · exact second c there

theorem plain_decimal (n : ℕ) : Plain (toString n) := by
  intro c member
  rw [isPlain, decimal_digits member, Bool.or_true, Bool.true_or]

theorem Region.plain_code (region : Region) : Plain region.code := by
  intro c member
  rw [isPlain, region.plain c member, Bool.true_or]

theorem plain_hyphen : Plain "-" := by
  intro c member
  obtain rfl := List.mem_singleton.mp member
  rfl

theorem Kind.plain_stem (kind : Kind) : Plain kind.stem := by
  intro c member
  cases kind with
  | node =>
    obtain rfl := List.mem_singleton.mp member
    rfl
  | gateway =>
    obtain rfl := List.mem_singleton.mp member
    rfl

theorem plain_poolStem : Plain poolStem := by
  intro c member
  obtain rfl := List.mem_singleton.mp member
  rfl

theorem Plain.no_dot (plain : Plain label) : '.' ∉ label.toList :=
  fun member => (isPlain_facts (plain _ member)).2.1 rfl

theorem firstLabel_append (plain : Plain label) (domain : String) :
    firstLabel (label ++ "." ++ domain) = label := by
  have before : ∀ c ∈ label.toList, decide (c ≠ '.') = true := by
    intro c member
    exact decide_eq_true (isPlain_facts (plain c member)).2.1
  have chars : (label ++ "." ++ domain).toList = label.toList ++ '.' :: domain.toList := by
    simp [String.toList_append]
  rw [firstLabel, chars, List.takeWhile_append_of_pos before, List.takeWhile_cons_of_neg (by simp),
    List.append_nil, String.ofList_toList]

/-- A plain label under a settled name is settled. -/
theorem Settled.under (settled : Settled domain) (plain : Plain label) :
    Settled (label ++ "." ++ domain) := by
  have chars : (label ++ "." ++ domain).toList = label.toList ++ '.' :: domain.toList := by
    simp [String.toList_append]
  obtain ⟨last, ends, fits⟩ := settled.ends
  refine ⟨?_, last, ?_, fits⟩
  · intro c member
    rw [chars, List.mem_append, List.mem_cons] at member
    rcases member with here | rfl | there
    · exact (isPlain_facts (plain c here)).1
    · rfl
    · exact settled.lower c there
  · rw [chars, List.getLast?_append, List.getLast?_cons, ends]
    rfl

theorem normalise_under (settled : Settled domain) (plain : Plain label) :
    normalise (label ++ "." ++ domain) = label ++ "." ++ domain := by
  have chars : (label ++ "." ++ domain).toList = label.toList ++ '.' :: domain.toList := by
    simp [String.toList_append]
  obtain ⟨lower, last, ends, unspaced, notDot⟩ := settled.under plain
  have stripped : strip (label ++ "." ++ domain) = label ++ "." ++ domain := by
    refine strip_eq_self ?_ ?_
    · intro c member
      rw [chars] at member
      cases start : label.toList with
      | nil =>
        rw [start] at member
        obtain rfl := Option.some.inj member
        rfl
      | cons first rest =>
        rw [start] at member
        obtain rfl := Option.some.inj member
        exact (isPlain_facts (plain first (by rw [start]; exact List.mem_cons_self))).2.2
    · intro c member
      obtain rfl := Option.some.inj (ends.symm.trans member)
      exact unspaced
  rw [normalise, stripped, asciiLower_eq_self lower]
  refine rstripOf_eq_self ?_
  intro c member
  obtain rfl := Option.some.inj (ends.symm.trans member)
  exact beq_false_of_ne notDot

end Labels

/-! ### Every name tells its series and number -/

section Hostnames

variable {series other : Series} {n m : ℕ}

/-- The label of a region's cluster of a number. -/
def clusterLabel (region : Region) (n : ℕ) : String :=
  if n = 1 then region.code else region.code ++ "-" ++ toString n

/-- The first label of the host name of a number. -/
def Series.first : Series → ℕ → String
  | .clusters _ _, _ => "mail"
  | series, n => series.stem ++ toString n

/-- The host name of a number, after its first label. -/
def Series.rest : Series → ℕ → String
  | .clusters dnsZone region, n => clusterLabel region n ++ "." ++ dnsZone.name
  | .servers _ cluster, _ => cluster
  | .pools cluster, _ => "out." ++ cluster
  | .addresses cluster _, _ => cluster

/-- The host name of a number. -/
def Series.hostname (series : Series) (n : ℕ) : String := series.first n ++ "." ++ series.rest n

/-- The addresses of a pool that was named. -/
def Series.OfNamed : Series → Prop
  | .addresses _ poolName => ∃ k : ℕ, poolName = poolStem ++ toString k
  | _ => True

theorem Series.plain_stem (named : series.OfNamed) : Plain series.stem := by
  cases series with
  | clusters _ region => exact region.plain_code.append plain_hyphen
  | servers kind _ => exact kind.plain_stem
  | pools _ => exact plain_poolStem
  | addresses _ poolName =>
    obtain ⟨k, rfl⟩ := named
    exact (plain_poolStem.append (plain_decimal k)).append plain_hyphen

theorem Series.plain_first (named : series.OfNamed) (n : ℕ) : Plain (series.first n) := by
  cases series with
  | clusters _ _ =>
    show Plain "mail"
    exact forall_mem_of_all (by decide)
  | servers _ _ => exact (Series.plain_stem named).append (plain_decimal n)
  | pools _ => exact (Series.plain_stem named).append (plain_decimal n)
  | addresses _ _ => exact (Series.plain_stem named).append (plain_decimal n)

theorem hyphen_not_mem_decimal (n : ℕ) : '-' ∉ (toString n).toList :=
  fun member => Bool.false_ne_true (decimal_digits member)

theorem hyphen_not_mem_code (region : Region) : '-' ∉ region.code.toList :=
  fun member => Bool.false_ne_true (region.plain _ member)

theorem plain_clusterLabel (region : Region) (n : ℕ) : Plain (clusterLabel region n) := by
  rw [clusterLabel]
  split
  · exact region.plain_code
  · exact (region.plain_code.append plain_hyphen).append (plain_decimal n)

theorem clusterLabel_injective {region region' : Region}
    (same : clusterLabel region n = clusterLabel region' m) : region = region' ∧ n = m := by
  have code {region region' : Region} (same : region.code.toList = region'.code.toList) :
      region = region' := by
    cases region
    cases region'
    cases String.toList_inj.mp same
    rfl
  have long (region : Region) (n : ℕ) : (region.code ++ "-" ++ toString n).toList =
      region.code.toList ++ '-' :: (toString n).toList := by
    simp [String.toList_append]
  have mixed {region region' : Region} {n : ℕ}
      (same : region.code = region'.code ++ "-" ++ toString n) : False := by
    refine hyphen_not_mem_code region ?_
    rw [same, long]
    exact List.mem_append_right _ List.mem_cons_self
  rw [clusterLabel, clusterLabel] at same
  split at same
  · split at same
    · rename_i one one'
      exact ⟨code (congrArg String.toList same), one.trans one'.symm⟩
    · exact (mixed same).elim
  · split at same
    · exact (mixed same.symm).elim
    · have chars := congrArg String.toList same
      rw [long, long] at chars
      obtain ⟨regions, numbers⟩ := split_first (hyphen_not_mem_code _) (hyphen_not_mem_code _) chars
      exact ⟨code regions, decimal_injective numbers⟩

/-- The first letter of a series' host names. -/
def Series.initial : Series → Char
  | .clusters _ _ => 'm'
  | .servers .node _ => 'n'
  | .servers .gateway _ => 'g'
  | .pools _ => 'p'
  | .addresses _ _ => 'p'

theorem Series.head_first (named : series.OfNamed) (n : ℕ) :
    (series.first n).toList.head? = some series.initial := by
  cases series with
  | clusters _ _ => simp [Series.first, Series.initial]
  | servers kind _ => cases kind <;> simp [Series.first, Series.stem, Kind.stem, Series.initial]
  | pools _ => simp [Series.first, Series.stem, poolStem, Series.initial]
  | addresses _ poolName =>
    obtain ⟨k, rfl⟩ := named
    simp [Series.first, Series.stem, poolStem, Series.initial]

theorem first_addresses (cluster : String) (k n : ℕ) :
    (Series.first (.addresses cluster (poolStem ++ toString k)) n).toList =
      (poolStem ++ toString k).toList ++ '-' :: (toString n).toList := by
  show (poolStem ++ toString k ++ "-" ++ toString n).toList = _
  rw [String.toList_append, String.toList_append, List.append_assoc]
  rfl

theorem hyphen_not_mem_poolName (k : ℕ) : '-' ∉ (poolStem ++ toString k).toList := by
  rw [String.toList_append, List.mem_append, not_or]
  exact ⟨by decide, hyphen_not_mem_decimal k⟩

theorem Series.hostname_injective (named : series.OfNamed) (named' : other.OfNamed)
    (same : series.hostname n = other.hostname m) : series = other ∧ n = m := by
  have split (series : Series) (n : ℕ) : (series.hostname n).toList =
      (series.first n).toList ++ '.' :: (series.rest n).toList := by
    simp [Series.hostname, String.toList_append]
  have chars := congrArg String.toList same
  rw [split, split] at chars
  obtain ⟨firsts, rests⟩ := split_first (Series.plain_first named n).no_dot
    (Series.plain_first named' m).no_dot chars
  have initials : series.initial = other.initial := by
    have heads := congrArg List.head? firsts
    rw [Series.head_first named, Series.head_first named'] at heads
    exact Option.some.inj heads
  have first := String.toList_inj.mp firsts
  have rest := String.toList_inj.mp rests
  -- A pool's name and the name of a row of a pool start alike; the row's has a hyphen.
  have apart {cluster : String} {j k n : ℕ}
      (same : (poolStem ++ toString n).toList =
        (Series.first (.addresses cluster (poolStem ++ toString k)) j).toList) : False := by
    refine hyphen_not_mem_poolName n ?_
    rw [same, first_addresses]
    exact List.mem_append_right _ List.mem_cons_self
  cases series with
  | clusters dnsZone region =>
    cases other with
    | clusters dnsZone' region' =>
      have parts : (clusterLabel region n).toList ++ '.' :: dnsZone.name.toList =
          (clusterLabel region' m).toList ++ '.' :: dnsZone'.name.toList := by
        simpa [Series.rest, String.toList_append] using rests
      obtain ⟨labels, zones⟩ := split_first (plain_clusterLabel _ _).no_dot
        (plain_clusterLabel _ _).no_dot parts
      obtain ⟨rfl, rfl⟩ := clusterLabel_injective (String.toList_inj.mp labels)
      cases dnsZone
      cases dnsZone'
      cases String.toList_inj.mp zones
      exact ⟨rfl, rfl⟩
    | servers kind _ => cases kind <;> simp [Series.initial] at initials
    | pools _ => simp [Series.initial] at initials
    | addresses _ _ => simp [Series.initial] at initials
  | servers kind cluster =>
    cases other with
    | clusters _ _ => cases kind <;> simp [Series.initial] at initials
    | servers kind' cluster' =>
      have kinds : kind = kind' := by
        cases kind <;> cases kind' <;> first | rfl | simp [Series.initial] at initials
      subst kinds
      have clusters : cluster = cluster' := rest
      subst clusters
      exact ⟨rfl, append_decimal_injective first⟩
    | pools _ => cases kind <;> simp [Series.initial] at initials
    | addresses _ _ => cases kind <;> simp [Series.initial] at initials
  | pools cluster =>
    cases other with
    | clusters _ _ => simp [Series.initial] at initials
    | servers kind _ => cases kind <;> simp [Series.initial] at initials
    | pools cluster' =>
      have clusters : cluster = cluster' := by
        have tails := rests
        simp only [Series.rest, String.toList_append] at tails
        exact String.toList_inj.mp (List.append_cancel_left tails)
      subst clusters
      exact ⟨rfl, append_decimal_injective first⟩
    | addresses cluster' poolName =>
      obtain ⟨k, rfl⟩ := named'
      exact (apart firsts).elim
  | addresses cluster poolName =>
    obtain ⟨k, rfl⟩ := named
    cases other with
    | clusters _ _ => simp [Series.initial] at initials
    | servers kind _ => cases kind <;> simp [Series.initial] at initials
    | pools _ => exact (apart firsts.symm).elim
    | addresses cluster' poolName' =>
      obtain ⟨k', rfl⟩ := named'
      rw [first_addresses, first_addresses] at firsts
      obtain ⟨pools, numbers⟩ := split_first (hyphen_not_mem_poolName k) (hyphen_not_mem_poolName k')
        firsts
      have clusters : cluster = cluster' := rest
      rw [clusters, String.toList_inj.mp pools, decimal_injective numbers]
      exact ⟨rfl, rfl⟩

end Hostnames

/-! ### What was given -/

section Log

variable {given : List Given} {series : Series}

/-- **Every name is one of its series, given once.** -/
structure Sound (given : List Given) : Prop where
  issued : ∀ entry ∈ given, ∃ n : ℕ, entry.label = entry.series.stem ++ toString n ∧
    entry.hostname = entry.series.hostname n
  once : ∀ a ∈ given, ∀ b ∈ given, a.series = b.series → a.label = b.label → a.holder = b.holder
  /-- Rows are named after a pool that was named. -/
  pooled : ∀ entry ∈ given, ∀ cluster poolName, entry.series = .addresses cluster poolName →
    ∃ pool ∈ given, pool.series = .pools cluster ∧ pool.label = poolName

theorem Sound.ofNamed (sound : Sound given) {entry : Given} (member : entry ∈ given) :
    entry.series.OfNamed := by
  cases kind : entry.series with
  | clusters _ _ => trivial
  | servers _ _ => trivial
  | pools _ => trivial
  | addresses cluster poolName =>
    obtain ⟨pool, there, series, rfl⟩ := sound.pooled entry member cluster poolName kind
    obtain ⟨k, label, -⟩ := sound.issued pool there
    rw [series] at label
    exact ⟨k, label⟩

theorem Sound.neverTwice {s : State} (sound : Sound s.given) : NeverTwice s := by
  refine ⟨?_, ?_⟩
  · intro a here b there same
    obtain ⟨n, labelA, hostA⟩ := sound.issued a here
    obtain ⟨m, labelB, hostB⟩ := sound.issued b there
    rw [hostA, hostB] at same
    obtain ⟨alike, rfl⟩ := Series.hostname_injective (sound.ofNamed here) (sound.ofNamed there) same
    refine sound.once a here b there alike ?_
    rw [labelA, labelB, alike]
  · intro a here b there cluster ofA ofB same
    exact sound.once a here b there (ofA.trans ofB.symm) same

/-- The entry of a number. -/
def Series.entry (series : Series) (holder n : ℕ) : Given :=
  ⟨holder, series, series.stem ++ toString n, series.hostname n⟩

theorem mem_labelsOf {label : String} :
    label ∈ labelsOf given series ↔ ∃ entry ∈ given, entry.series = series ∧ entry.label = label := by
  simp only [labelsOf, List.mem_map, List.mem_filter, decide_eq_true_eq, and_assoc]

/-- **A number past the highest that was given** makes a new name. -/
theorem Sound.give (sound : Sound given) (holder : ℕ) {n : ℕ}
    (past : highest series.stem (labelsOf given series) < n)
    (pooled : ∀ cluster poolName, series = .addresses cluster poolName →
      ∃ pool ∈ given, pool.series = .pools cluster ∧ pool.label = poolName) :
    Sound (series.entry holder n :: given) := by
  have new : ∀ entry ∈ given, entry.series = series → entry.label ≠ series.stem ++ toString n := by
    intro entry member same label
    have known : series.stem ++ toString n ∈ labelsOf given series :=
      mem_labelsOf.mpr ⟨entry, member, same, label⟩
    exact absurd (le_highest known (numberOf_append _ n)) (Nat.not_le.mpr past)
  refine ⟨?_, ?_, ?_⟩
  · intro entry member
    rcases List.mem_cons.mp member with rfl | there
    · exact ⟨n, rfl, rfl⟩
    · exact sound.issued entry there
  · intro a here b there same label
    rcases List.mem_cons.mp here with rfl | here <;> rcases List.mem_cons.mp there with rfl | there
    · rfl
    · exact absurd label.symm (new b there same.symm)
    · exact absurd label (new a here same)
    · exact sound.once a here b there same label
  · intro entry member cluster poolName ofPool
    have known : ∃ pool ∈ given, pool.series = .pools cluster ∧ pool.label = poolName := by
      rcases List.mem_cons.mp member with rfl | there
      · exact pooled cluster poolName ofPool
      · exact sound.pooled entry there cluster poolName ofPool
    obtain ⟨pool, there, named⟩ := known
    exact ⟨pool, List.mem_cons_of_mem _ there, named⟩

theorem Sound.congr {given' : List Given} (sound : Sound given) (same : ∀ entry, entry ∈ given' ↔ entry ∈ given) :
    Sound given' := by
  refine ⟨?_, ?_, ?_⟩
  · intro entry member
    exact sound.issued entry ((same entry).mp member)
  · intro a here b there
    exact sound.once a ((same a).mp here) b ((same b).mp there)
  · intro entry member cluster poolName ofPool
    obtain ⟨pool, there, named⟩ := sound.pooled entry ((same entry).mp member) cluster poolName ofPool
    exact ⟨pool, (same pool).mpr there, named⟩

theorem highest_give {holder n h : ℕ} (below : highest series.stem (labelsOf given series) ≤ h)
    (least : h ≤ n) : highest series.stem (labelsOf (series.entry holder n :: given) series) ≤ n := by
  have one : labelsOf (series.entry holder n :: given) series =
      (series.stem ++ toString n) :: labelsOf given series := by
    simp [labelsOf, Series.entry]
  rw [one, highest, List.filterMap_cons, numberOf_append, List.foldr_cons]
  exact Nat.max_le.mpr ⟨Nat.le_refl n, Nat.le_trans below least⟩

end Log

/-! ### The rows of a pool -/

section Rows

variable {given : List Given} {cluster poolName : String} {rows : List PoolAddress}

/-- The rows of a pool that was named: each is unnamed, or has the name it was given. -/
structure Sent (given : List Given) (cluster poolName : String) (rows : List PoolAddress) : Prop where
  pooled : ∃ pool ∈ given, pool.series = .pools cluster ∧ pool.label = poolName
  named : ∀ row ∈ rows, row.ehloHostname = "" ∨ rowEntry cluster poolName row ∈ given

theorem assignLoop_sound (sound : Sound given) (sent : Sent given cluster poolName rows)
    {taken : List String}
    (inUse : (∃ row ∈ rows, row.ehloHostname = "") →
      InUse given (.addresses cluster poolName) taken) :
    Sound ((assignLoop (poolName ++ "-") cluster taken rows).map (rowEntry cluster poolName) ++
      given) := by
  induction rows generalizing given taken with
  | nil => exact sound
  | cons row rest ih =>
    obtain ⟨pooled, named⟩ := sent
    rw [assignLoop]
    by_cases unnamed : row.ehloHostname = ""
    · rw [if_neg (not_not.mpr unnamed)]
      have below := inUse ⟨row, List.mem_cons_self, unnamed⟩
      have next := sound.give row.id (Nat.lt_succ_of_le below) (by
        rintro _ _ ⟨⟩
        exact pooled)
      have plain : Plain (nextLabel (poolName ++ "-") taken) :=
        Series.plain_first (next.ofNamed List.mem_cons_self) (highest (poolName ++ "-") taken + 1)
      have entry : rowEntry cluster poolName
          { row with ehloHostname := nextLabel (poolName ++ "-") taken ++ "." ++ cluster } =
            Series.entry (.addresses cluster poolName) row.id (highest (poolName ++ "-") taken + 1) := by
        rw [rowEntry, firstLabel_append plain]
        rfl
      have others : Sent (Series.entry (.addresses cluster poolName) row.id
          (highest (poolName ++ "-") taken + 1) :: given) cluster poolName rest := by
        obtain ⟨pool, there, facts⟩ := pooled
        refine ⟨⟨pool, List.mem_cons_of_mem _ there, facts⟩, fun other member => ?_⟩
        exact (named other (List.mem_cons_of_mem _ member)).imp_right (List.mem_cons_of_mem _)
      have still : InUse (Series.entry (.addresses cluster poolName) row.id
          (highest (poolName ++ "-") taken + 1) :: given) (.addresses cluster poolName)
            (taken ++ [nextLabel (poolName ++ "-") taken]) := by
        have last : nextLabel (poolName ++ "-") taken ∈ taken ++ [nextLabel (poolName ++ "-") taken] :=
          List.mem_append_right _ (List.mem_singleton_self _)
        exact Nat.le_trans (highest_give below (Nat.le_succ _)) (le_highest last (numberOf_append _ _))
      refine (ih next others fun _ => still).congr fun found => ?_
      simp only [List.map_cons, entry, List.mem_append, List.mem_cons]
      constructor
      · rintro ((rfl | there) | there)
        · exact Or.inr (Or.inl rfl)
        · exact Or.inl there
        · exact Or.inr (Or.inr there)
      · rintro (there | rfl | there)
        · exact Or.inl (Or.inr there)
        · exact Or.inl (Or.inl rfl)
        · exact Or.inr there
    · rw [if_pos unnamed]
      have known := (named row List.mem_cons_self).resolve_left unnamed
      have fewer : (∃ row ∈ rest, row.ehloHostname = "") →
          InUse given (.addresses cluster poolName) taken := by
        rintro ⟨other, member, blank⟩
        exact inUse ⟨other, List.mem_cons_of_mem _ member, blank⟩
      have more := ih sound ⟨pooled, fun other member => named other (List.mem_cons_of_mem _ member)⟩ fewer
      refine more.congr fun found => ?_
      simp only [List.map_cons, List.mem_append, List.mem_cons]
      constructor
      · rintro ((rfl | there) | there)
        · exact Or.inr known
        · exact Or.inl there
        · exact Or.inr there
      · rintro (there | there)
        · exact Or.inl (Or.inr there)
        · exact Or.inr there

theorem validateAddresses_sound (sound : Sound given) (settled : Settled cluster)
    (sent : Sent given cluster poolName rows)
    (inUse : (∃ row ∈ rows, row.ehloHostname = "") →
      InUse given (.addresses cluster poolName) (namedLabels rows))
    {addresses : List PoolAddress} (valid : validateAddresses poolName cluster rows = some addresses) :
    Sound (addresses.map (rowEntry cluster poolName) ++ given) := by
  have after := assignLoop_sound sound sent inUse
  have stored : (assignEhloHostnames poolName cluster rows).map (fun row =>
      { row with ehloHostname := normalise row.ehloHostname }) =
        assignEhloHostnames poolName cluster rows := by
    refine (List.map_congr_left fun row member => ?_).trans (List.map_id _)
    have entry : rowEntry cluster poolName row ∈
        (assignEhloHostnames poolName cluster rows).map (rowEntry cluster poolName) ++ given :=
      List.mem_append_left _ (List.mem_map_of_mem member)
    obtain ⟨n, -, hostname⟩ := after.issued _ entry
    have name : row.ehloHostname = Series.first (.addresses cluster poolName) n ++ "." ++ cluster :=
      hostname
    have plain : Plain (Series.first (.addresses cluster poolName) n) :=
      Series.plain_first (after.ofNamed entry) n
    show ({ row with ehloHostname := normalise row.ehloHostname } : PoolAddress) = row
    rw [name, normalise_under settled plain, ← name]
  rw [validateAddresses, stored] at valid
  obtain ⟨-, same⟩ := Option.ite_none_right_eq_some.mp valid
  obtain rfl := Option.some.inj same
  exact after

end Rows

/-! ### The names of whole documents -/

section Documents

variable {s s' : State} {dnsZone : Zone} {region : Region} {kind : Kind} {cluster : String}

theorem clusterHostname (dnsZone : Zone) (region : Region) (n : ℕ) :
    StalwartCluster.hostname ⟨dnsZone, region, clusterLabel region n⟩ =
      Series.hostname (.clusters dnsZone region) n := by
  refine String.toList_inj.mp ?_
  simp [StalwartCluster.hostname, Series.hostname, Series.first, Series.rest, String.toList_append]

theorem poolHostname (cluster : String) (n : ℕ) (addresses : List PoolAddress) :
    EgressIPPool.hostname ⟨cluster, poolStem ++ toString n, addresses⟩ =
      Series.hostname (.pools cluster) n := by
  refine String.toList_inj.mp ?_
  simp [EgressIPPool.hostname, Series.hostname, Series.first, Series.rest, Series.stem,
    String.toList_append]

theorem numbered_clusterLabel (region : Region) (n : ℕ) :
    numbered region.code (clusterLabel region n) = region.code ++ "-" ++ toString n := by
  rw [clusterLabel]
  by_cases one : n = 1
  · rw [if_pos one, numbered, if_pos rfl, one, String.append_assoc]
    rfl
  · rw [if_neg one, numbered, if_neg]
    intro same
    refine hyphen_not_mem_code region ?_
    rw [← same]
    simp [String.toList_append]

/-- **Every document and row is of the log.** -/
structure Inv (s : State) : Prop where
  sound : Sound s.given
  clusters : ∀ cluster ∈ s.clusters, ∃ n : ℕ, 1 ≤ n ∧ cluster.label = clusterLabel cluster.region n
  settled : ∀ pool ∈ s.pools, Settled pool.cluster
  pooled : ∀ pool ∈ s.pools, ∃ entry ∈ s.given, entry.series = .pools pool.cluster ∧
    entry.label = pool.poolName
  rows : ∀ pool ∈ s.pools, ∀ row ∈ pool.addresses,
    rowEntry pool.cluster pool.poolName row ∈ s.given

theorem Inv.empty : Inv State.empty where
  sound := ⟨List.forall_mem_nil _, List.forall_mem_nil _, List.forall_mem_nil _⟩
  clusters := List.forall_mem_nil _
  settled := List.forall_mem_nil _
  pooled := List.forall_mem_nil _
  rows := List.forall_mem_nil _

theorem Inv.settled_cluster (inv : Inv s) (known : cluster ∈ s.clusters.map StalwartCluster.hostname) :
    Settled cluster := by
  obtain ⟨found, there, rfl⟩ := List.mem_map.mp known
  obtain ⟨n, -, label⟩ := inv.clusters found there
  have host : found.hostname = "mail" ++ "." ++ (found.label ++ "." ++ found.dnsZone.name) := by
    refine String.toList_inj.mp ?_
    simp [StalwartCluster.hostname, String.toList_append]
  rw [host, label]
  refine (found.dnsZone.settled.under (plain_clusterLabel _ n)).under ?_
  exact forall_mem_of_all (by decide)

theorem nextClusterLabel_eq (inv : Inv s) (dnsZone : Zone) (region : Region) :
    nextClusterLabel region.code (s.clusterLabels dnsZone region) =
      clusterLabel region (highest (region.code ++ "-")
        ((s.clusterLabels dnsZone region).map (numbered region.code)) + 1) := by
  rw [nextClusterLabel]
  by_cases empty : s.clusterLabels dnsZone region = []
  · rw [if_pos empty, empty]
    rfl
  · rw [if_neg empty, clusterLabel, if_neg]
    · rfl
    · intro one
      obtain ⟨label, member⟩ := List.exists_mem_of_ne_nil _ empty
      obtain ⟨found, there, rfl⟩ := List.mem_map.mp member
      obtain ⟨there, same⟩ := List.mem_filter.mp there
      obtain ⟨n, least, label⟩ := inv.clusters found there
      rw [(of_decide_eq_true same).2] at label
      have number : numberOf (region.code ++ "-") (numbered region.code found.label) = some n := by
        rw [label, numbered_clusterLabel, numberOf_append]
      have top := le_highest (List.mem_map_of_mem member) number
      omega

theorem Inv.grow (inv : Inv s) (sound : Sound s'.given) (more : ∀ entry ∈ s.given, entry ∈ s'.given)
    (clusters : ∀ cluster ∈ s'.clusters, cluster ∈ s.clusters ∨
      ∃ n : ℕ, 1 ≤ n ∧ cluster.label = clusterLabel cluster.region n)
    (pools : ∀ pool ∈ s'.pools, pool ∈ s.pools ∨ (Settled pool.cluster ∧
      (∃ entry ∈ s'.given, entry.series = .pools pool.cluster ∧ entry.label = pool.poolName) ∧
      ∀ row ∈ pool.addresses, rowEntry pool.cluster pool.poolName row ∈ s'.given)) :
    Inv s' := by
  refine ⟨sound, ?_, ?_, ?_, ?_⟩
  · intro cluster member
    rcases clusters cluster member with old | new
    · exact inv.clusters cluster old
    · exact new
  · intro pool member
    rcases pools pool member with old | new
    · exact inv.settled pool old
    · exact new.1
  · intro pool member
    rcases pools pool member with old | new
    · obtain ⟨entry, there, facts⟩ := inv.pooled pool old
      exact ⟨entry, more entry there, facts⟩
    · exact new.2.1
  · intro pool member row there
    rcases pools pool member with old | new
    · exact more _ (inv.rows pool old row there)
    · exact new.2.2 row there

theorem insertCluster_inv (inv : Inv s) (meets : Meets s (.insertCluster dnsZone region ""))
    (taken : step s (.insertCluster dnsZone region "") = some s') : Inv s' := by
  obtain ⟨-, inUse⟩ := meets
  obtain ⟨-, result⟩ := Option.ite_none_left_eq_some.mp taken
  obtain rfl := Option.some.inj result
  have label := nextClusterLabel_eq inv dnsZone region
  refine inv.grow ?_ (fun _ => List.mem_cons_of_mem _) ?_ (fun _ => Or.inl)
  · have next := inv.sound.give s.created (Nat.lt_succ_of_le inUse) nofun
    show Sound (⟨s.created, .clusters dnsZone region,
      numbered region.code (nextClusterLabel region.code (s.clusterLabels dnsZone region)),
      StalwartCluster.hostname ⟨dnsZone, region, nextClusterLabel region.code
        (s.clusterLabels dnsZone region)⟩⟩ :: s.given)
    rw [label, numbered_clusterLabel, clusterHostname]
    exact next
  · intro cluster member
    rcases List.mem_cons.mp member with rfl | there
    · exact Or.inr ⟨_, Nat.succ_le_succ (Nat.zero_le _), label⟩
    · exact Or.inl there

theorem insertServer_inv (inv : Inv s) (meets : Meets s (.insertServer kind cluster))
    (taken : step s (.insertServer kind cluster) = some s') : Inv s' := by
  obtain ⟨-, result⟩ := Option.ite_none_left_eq_some.mp taken
  obtain rfl := Option.some.inj result
  refine inv.grow ?_ (fun _ => List.mem_cons_of_mem _) (fun _ => Or.inl) (fun _ => Or.inl)
  have next := inv.sound.give s.created (Nat.lt_succ_of_le meets) nofun
  have plain : Plain (nextLabel kind.stem (s.serverLabels kind cluster)) :=
    kind.plain_stem.append (plain_decimal _)
  show Sound (⟨s.created, .servers kind cluster, firstLabel (nextHostname s kind cluster),
    nextHostname s kind cluster⟩ :: s.given)
  rw [nextHostname, firstLabel_append plain]
  exact next

theorem withPool_inv (inv : Inv s) {given : List Given} (known : ∀ entry ∈ s.given, entry ∈ given)
    {pool : EgressIPPool} (settled : Settled pool.cluster)
    (pooled : ∃ entry ∈ given, entry.series = .pools pool.cluster ∧ entry.label = pool.poolName)
    (sound : Sound (pool.addresses.map (rowEntry pool.cluster pool.poolName) ++ given))
    {others : List EgressIPPool} (fewer : ∀ other ∈ others, other ∈ s.pools) (rows : ℕ) :
    Inv (s.withPool pool others given rows) := by
  refine inv.grow sound (fun entry there => List.mem_append_right _ (known entry there))
    (fun _ => Or.inl) ?_
  intro found member
  rcases List.mem_cons.mp member with rfl | there
  · obtain ⟨entry, here, facts⟩ := pooled
    refine Or.inr ⟨settled, ⟨entry, List.mem_append_right _ here, facts⟩, fun row there => ?_⟩
    exact List.mem_append_left _ (List.mem_map_of_mem there)
  · exact Or.inl (fewer found there)

theorem mem_sentRows {stored : List PoolAddress} {rows : List SentAddress} {row : PoolAddress}
    (member : row ∈ sentRows s stored rows) :
    ∃ sent ∈ rows, row.ehloHostname = sent.ehloHostname ∧
      ∀ id ∈ stored.map PoolAddress.id, sent.row = some id → row.id = id := by
  obtain ⟨i, inside, rfl⟩ := List.mem_mapIdx.mp member
  refine ⟨rows[i], List.getElem_mem inside, rfl, fun id known same => ?_⟩
  show (rows[i].row.filter (· ∈ stored.map PoolAddress.id)).getD _ = id
  rw [same, Option.filter_some, if_pos (decide_eq_true known)]
  rfl

theorem insertPool_inv (inv : Inv s) {rows : List SentAddress} (meets : Meets s (.insertPool cluster rows))
    (taken : step s (.insertPool cluster rows) = some s') : Inv s' := by
  obtain ⟨unnamed, inUse⟩ := meets
  obtain ⟨fits, built⟩ := Option.ite_none_left_eq_some.mp taken
  obtain ⟨addresses, valid, stored⟩ := Option.bind_eq_some_iff.mp built
  obtain ⟨-, result⟩ := Option.ite_none_left_eq_some.mp stored
  obtain rfl := Option.some.inj result
  have settled := inv.settled_cluster (not_not.mp (not_or.mp fits).1)
  have next : Sound (⟨s.created, .pools cluster, nextPoolName s cluster,
      EgressIPPool.hostname ⟨cluster, nextPoolName s cluster, addresses⟩⟩ :: s.given) := by
    rw [nextPoolName, nextLabel, poolHostname]
    exact inv.sound.give s.created (Nat.lt_succ_of_le inUse) nofun
  have pooled : ∃ entry ∈ (⟨s.created, .pools cluster, nextPoolName s cluster,
      EgressIPPool.hostname ⟨cluster, nextPoolName s cluster, addresses⟩⟩ :: s.given : List Given),
        entry.series = .pools cluster ∧ entry.label = nextPoolName s cluster :=
    ⟨_, List.mem_cons_self, rfl, rfl⟩
  -- The pool's name is new, so no row was ever named after it.
  have fresh : labelsOf (⟨s.created, .pools cluster, nextPoolName s cluster,
      EgressIPPool.hostname ⟨cluster, nextPoolName s cluster, addresses⟩⟩ :: s.given)
        (.addresses cluster (nextPoolName s cluster)) = [] := by
    refine List.eq_nil_iff_forall_not_mem.mpr fun label member => ?_
    obtain ⟨entry, there, series, -⟩ := mem_labelsOf.mp member
    rcases List.mem_cons.mp there with rfl | there
    · cases series
    · obtain ⟨pool, known, ofCluster, name⟩ := inv.sound.pooled entry there _ _ series
      have labelled : nextPoolName s cluster ∈ labelsOf s.given (.pools cluster) :=
        mem_labelsOf.mpr ⟨pool, known, ofCluster, name⟩
      have top : highest poolStem (s.poolNames cluster) + 1 ≤
          highest poolStem (labelsOf s.given (.pools cluster)) :=
        le_highest labelled (numberOf_append _ _)
      exact absurd (Nat.le_trans top inUse) (Nat.not_succ_le_self _)
  refine withPool_inv inv (fun _ => List.mem_cons_of_mem _) settled pooled ?_ (fun _ => id) _
  refine validateAddresses_sound next settled ⟨pooled, fun row member => Or.inl ?_⟩ (fun _ => ?_) valid
  · obtain ⟨sent, there, same, -⟩ := mem_sentRows member
    exact same.trans (unnamed sent there)
  · rw [InUse, fresh]
    exact Nat.zero_le _

theorem savePool_inv (inv : Inv s) {name : String} {rows : List SentAddress}
    (meets : Meets s (.savePool name rows)) (taken : step s (.savePool name rows) = some s') :
    Inv s' := by
  obtain ⟨pool, found, saved⟩ := Option.bind_eq_some_iff.mp taken
  obtain ⟨addresses, valid, rfl⟩ := Option.map_eq_some_iff.mp saved
  obtain ⟨named, inUse⟩ := meets pool found
  have there : pool ∈ s.pools := List.mem_of_find?_eq_some found
  have sent : Sent s.given pool.cluster pool.poolName (sentRows s pool.addresses rows) := by
    refine ⟨inv.pooled pool there, fun row member => ?_⟩
    obtain ⟨sent, inside, same, identity⟩ := mem_sentRows member
    refine (named sent inside).imp same.trans ?_
    rintro ⟨old, stored, ofRow, hostname⟩
    have whole : row = old := by
      cases row
      cases old
      cases same.trans hostname
      cases identity _ (List.mem_map_of_mem stored) ofRow
      rfl
    rw [whole]
    exact inv.rows pool there old stored
  have settled : Settled ({ pool with addresses := addresses } : EgressIPPool).cluster :=
    inv.settled pool there
  refine withPool_inv inv (fun _ => id) settled (inv.pooled pool there) ?_
    (fun _ member => (List.mem_filter.mp member).1) _
  refine validateAddresses_sound inv.sound (inv.settled pool there) sent (fun blank => inUse ?_) valid
  obtain ⟨row, member, empty⟩ := blank
  obtain ⟨sent, inside, same, -⟩ := mem_sentRows member
  exact ⟨sent, inside, same.symm.trans empty⟩

theorem step_inv {action : Action} (inv : Inv s) (meets : Meets s action)
    (taken : step s action = some s') : Inv s' := by
  cases action with
  | insertCluster dnsZone region label =>
    obtain rfl : label = "" := meets.1
    exact insertCluster_inv inv meets taken
  | deleteCluster name =>
    obtain ⟨-, result⟩ := Option.ite_none_left_eq_some.mp taken
    obtain rfl := Option.some.inj result
    exact inv.grow inv.sound (fun _ => id) (fun _ member => Or.inl (List.mem_filter.mp member).1)
      (fun _ => Or.inl)
  | insertServer kind cluster => exact insertServer_inv inv meets taken
  | deleteServer kind name =>
    obtain rfl := Option.some.inj taken
    exact inv.grow inv.sound (fun _ => id) (fun _ => Or.inl) (fun _ => Or.inl)
  | insertPool cluster rows => exact insertPool_inv inv meets taken
  | savePool name rows => exact savePool_inv inv meets taken
  | deletePool name =>
    obtain rfl := Option.some.inj taken
    exact inv.grow inv.sound (fun _ => id) (fun _ => Or.inl)
      (fun _ member => Or.inl (List.mem_filter.mp member).1)

end Documents

/-- **A name is given once**: in a run from no document whose every step meets `Meets`, no two documents or
address rows were given the same name. -/
theorem names_given_once {s : State} (reached : Reaches step Meets State.empty s) : NeverTwice s := by
  have inv : Inv s := reached.invariant Inv Inv.empty fun inv meets taken => step_inv inv meets taken
  exact inv.sound.neverTwice

/-! ### Runs -/

section Runs

/-- A zone and a region. -/
def frappemail : Zone :=
  ⟨"frappemail.com", forall_mem_of_all (by decide +kernel), 'm', by decide +kernel⟩

def bom : Region := ⟨"bom", forall_mem_of_all (by decide)⟩

/-- The region's first cluster. -/
def mailBom : String := "mail.bom.frappemail.com"

/-- Two nodes of which the first is deleted before the third is made, and a pool whose second address is
added later. -/
def rebuilt : List Action :=
  [.insertCluster frappemail bom "", .insertServer .node mailBom, .insertServer .node mailBom,
    .deleteServer .node "n1.mail.bom.frappemail.com", .insertServer .node mailBom,
    .insertPool mailBom [⟨none, ""⟩],
    .savePool "p1.out.mail.bom.frappemail.com"
      [⟨some 5, "p1-1.mail.bom.frappemail.com"⟩, ⟨none, ""⟩]]

theorem names_given_once_rebuilt : ∃ s, run step State.empty rebuilt = some s ∧
    s.given.map Given.hostname = ["p1-1.mail.bom.frappemail.com", "p1-2.mail.bom.frappemail.com",
      "p1-1.mail.bom.frappemail.com", "p1.out.mail.bom.frappemail.com", "n3.mail.bom.frappemail.com",
      "n2.mail.bom.frappemail.com", "n1.mail.bom.frappemail.com", "mail.bom.frappemail.com"] ∧
    NeverTwice s := by
  have seen : RunMeets step Meets State.empty rebuilt ∧
      (run step State.empty rebuilt).map (fun s => s.given.map Given.hostname) =
        some ["p1-1.mail.bom.frappemail.com", "p1-2.mail.bom.frappemail.com",
          "p1-1.mail.bom.frappemail.com", "p1.out.mail.bom.frappemail.com", "n3.mail.bom.frappemail.com",
          "n2.mail.bom.frappemail.com", "n1.mail.bom.frappemail.com", "mail.bom.frappemail.com"] := by
    decide +kernel
  obtain ⟨meets, ends⟩ := seen
  obtain ⟨s, done, hostnames⟩ := Option.map_eq_some_iff.mp ends
  exact ⟨s, done, hostnames, names_given_once (reaches_of_run meets done)⟩

/-- A node that is deleted, and the one that is made in its place. -/
def replaced : List Action :=
  [.insertCluster frappemail bom "", .insertServer .node mailBom,
    .deleteServer .node "n1.mail.bom.frappemail.com", .insertServer .node mailBom]

/-- **The new node inherits the deleted one's host name.** -/
theorem node_inherits_name : ∃ s, Reaches step anyStep State.empty s ∧
    (∃ old ∈ s.given, ∃ new ∈ s.given, old.holder ≠ new.holder ∧
      old.hostname = "n1.mail.bom.frappemail.com" ∧ new.hostname = "n1.mail.bom.frappemail.com") ∧
    ¬ NeverTwice s := by
  have ends : (run step State.empty replaced).map State.given = some
      [⟨2, .servers .node mailBom, "n1", "n1.mail.bom.frappemail.com"⟩,
        ⟨1, .servers .node mailBom, "n1", "n1.mail.bom.frappemail.com"⟩,
        ⟨0, .clusters frappemail bom, "bom-1", "mail.bom.frappemail.com"⟩] := by
    decide +kernel
  obtain ⟨s, done, given⟩ := Option.map_eq_some_iff.mp ends
  have reached : Reaches step anyStep State.empty s :=
    reaches_of_run (runMeets_of_forall fun _ _ _ => trivial) done
  have new : (⟨2, .servers .node mailBom, "n1", "n1.mail.bom.frappemail.com"⟩ : Given) ∈ s.given := by
    rw [given]
    exact List.mem_cons_self
  have old : (⟨1, .servers .node mailBom, "n1", "n1.mail.bom.frappemail.com"⟩ : Given) ∈ s.given := by
    rw [given]
    exact List.mem_cons_of_mem _ List.mem_cons_self
  refine ⟨s, reached, ⟨_, old, _, new, by decide, rfl, rfl⟩, fun never => ?_⟩
  exact absurd (never.hostname _ old _ new rfl) (by decide)

end Runs

end SuiteCloud.Mail.Cluster.Naming
