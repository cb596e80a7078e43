/-
**The route by which the cluster's mail leaves.**

`cluster_operations` of `suite_cloud/mail/cluster/egress.py`: the relay routes of the pools in use, and the
route expression, in which local delivery, the pools of the senders' domains, the rules somebody else put
there and the default pool come one after the other.

* `clusterOperations` — what is pushed; `routeExpression` and `localRules` — the expression.
* `Expression.evaluate` — its first rule that holds.
* `rightRoute` — where a message should go.
* `evaluate_routeExpression` — **the expression sends every message there.**
* `routes_right` — and every pool it names has its relay route among the operations.
* `fallback_local` — an expression that is local where nothing else matches stays so.
-/

import Mathlib.Data.List.Dedup
import SuiteCloud.Library.Dict

namespace SuiteCloud.Mail.Cluster.Routes

open SuiteCloud.Library

/-! ## Expressions -/

/-- Where mail goes to. -/
structure Address where
  user : String
  domain : String
  deriving DecidableEq

/-- What decides a message's route. -/
structure Message where
  senderDomain : String
  rcpt : Address
  deriving DecidableEq

/-- What the cluster holds: a held address lies on a held domain. -/
structure Directory where
  isLocalAddress : Address → Bool
  isLocalDomain : String → Bool
  onDomain : ∀ address, isLocalAddress address = true → isLocalDomain address.domain = true

/-- The comparisons that Suite Cloud writes. -/
inductive Comparison
  | rcptDomainIsLocal
  | rcptIsLocal
  | senderDomainIs (domain : String)
  | rcptDomainIsNot (domain : String)
  deriving DecidableEq

def Comparison.text : Comparison → String
  | .rcptDomainIsLocal => "is_local_domain(rcpt_domain)"
  | .rcptIsLocal => "is_local_address(rcpt)"
  | .senderDomainIs domain => "sender_domain == '" ++ domain ++ "'"
  | .rcptDomainIsNot domain => "rcpt_domain != '" ++ domain ++ "'"

/-- The condition of a rule: one that Suite Cloud writes, or a text that the cluster holds. -/
inductive Condition
  | anyOf (comparisons : List Comparison)
  | allOf (comparisons : List Comparison)
  | held (text : String)
  deriving DecidableEq

/-- The text that is sent. -/
def Condition.text : Condition → String
  | .anyOf comparisons => " || ".intercalate (comparisons.map Comparison.text)
  | .allOf comparisons => " && ".intercalate (comparisons.map Comparison.text)
  | .held text => text

/-- A rule; `target` is its `then`. -/
structure Rule where
  condition : Condition
  target : Option String
  deriving DecidableEq

/-- `match`: Stalwart's lists come as objects keyed by the index, and a JSON list is taken too. -/
inductive Match
  | indexed (entries : List (ℕ × Rule))
  | listed (rules : List Rule)

structure Expression where
  rules : Match
  /-- `else`. -/
  otherwise : Option String

/-- `{}`. -/
def Expression.empty : Expression := ⟨.indexed [], none⟩

/-- **`expression_rules`.** -/
def expressionRules (expression : Expression) : List Rule :=
  match expression.rules with
  | .indexed entries => (entries.mergeSort fun a b => a.1 ≤ b.1).map Prod.snd
  | .listed rules => rules

/-- `plan.as_list`. -/
def asList (rules : List Rule) : Match := .indexed (rules.zipIdx.map Prod.swap)

/-! ## The configuration -/

structure EgressIPPool where
  name : String
  cluster : String
  poolName : String
  hostname : String
  relayPort : ℕ
  /-- The IPs of its address rows. -/
  addresses : List String
  deriving DecidableEq

structure MailDomain where
  domainName : String
  cluster : String
  tenant : String
  enabled : Bool
  egressPool : Option String
  allowRelaying : Bool
  deriving DecidableEq

structure SuiteTenant where
  name : String
  stalwartCluster : Option String
  egressPool : Option String
  deriving DecidableEq

/-- The documents that are read; each is told by its name, a pool also by its name in its cluster. -/
structure Site where
  domains : List MailDomain
  tenants : List SuiteTenant
  pools : List EgressIPPool
  domainsNamed : (domains.map MailDomain.domainName).Nodup
  tenantsNamed : (tenants.map SuiteTenant.name).Nodup
  poolsNamed : (pools.map EgressIPPool.name).Nodup
  poolsOfCluster : (pools.map fun pool => (pool.cluster, pool.poolName)).Nodup

structure StalwartCluster where
  name : String
  /-- `status == "Active"`. -/
  active : Bool
  hasCredentials : Bool
  defaultEgressPool : Option String
  relayUsername : Option String
  relayPassword : String

variable (site : Site) (cluster : StalwartCluster)

/-- `pool_for_domain`. -/
def poolForDomain (domain : MailDomain) (sitePool clusterPool : Option String) : Option String :=
  domain.egressPool.or (sitePool.or clusterPool)

/-- `populated_pools`. -/
def populatedPools : List String :=
  (site.pools.filter fun pool => pool.cluster = cluster.name ∧ pool.addresses ≠ []).map EgressIPPool.name

/-- `default_pool`. -/
def defaultPool : Option String := cluster.defaultEgressPool.filter (· ∈ populatedPools site cluster)

/-- `tenant_pools.get(tenant)`. -/
def tenantPool (tenant : String) : Option String :=
  (site.tenants.find? fun found => found.stalwartCluster = some cluster.name ∧ found.name = tenant).bind
    SuiteTenant.egressPool

/-- The pool a domain's mail leaves through. -/
def effectivePool (domain : MailDomain) : Option String :=
  poolForDomain domain (tenantPool site cluster domain.tenant) cluster.defaultEgressPool

/-- The cluster's enabled Mail Domains, in the order of their names. -/
def enabledDomains : List MailDomain :=
  (site.domains.filter fun domain => domain.cluster = cluster.name ∧ domain.enabled).mergeSort
    fun a b => a.domainName ≤ b.domainName

/-- **`domains_by_pool`.** -/
def domainsByPool : Dict String (List String) :=
  Dict.groupBy ((enabledDomains site cluster).filterMap fun domain =>
    ((effectivePool site cluster domain).filter (· ∈ populatedPools site cluster)).map
      fun pool => (pool, domain.domainName))

/-- `relaying_domains`. -/
def relayingDomains : List String :=
  ((enabledDomains site cluster).filter MailDomain.allowRelaying).map MailDomain.domainName

/-! ## The operations -/

/-- `SUITE_RULE_PREFIX`. -/
def suiteRulePrefix : String := "'egress-"

/-- `LOCAL_RULE["then"]`. -/
def localTarget : String := "'local'"

def mxTarget : String := "'mx'"

def isSuiteTarget (target : String) : Bool := suiteRulePrefix.toList.isPrefixOf target.toList

/-- **`local_rules`.** -/
def localRules (relaying : List String) : List Rule :=
  if relaying = [] then [⟨.allOf [.rcptDomainIsLocal], some localTarget⟩]
  else
    [⟨.allOf [.rcptIsLocal], some localTarget⟩,
      ⟨.allOf (.rcptDomainIsLocal :: relaying.map .rcptDomainIsNot), some localTarget⟩]

example : (localRules ["moving.com", "split.com"]).map (·.condition.text) =
    ["is_local_address(rcpt)",
      "is_local_domain(rcpt_domain) && rcpt_domain != 'moving.com' && rcpt_domain != 'split.com'"] := by
  decide

/-- The pool document of a name; `pool_name` is what its route is named after. -/
def findPool (name : String) : Option EgressIPPool := site.pools.find? (·.name = name)

/-- `route_name`. -/
def routeName (name : String) : String :=
  suiteRulePrefix ++ ((findPool site name).map EgressIPPool.poolName).getD "None" ++ "'"

/-- `current_route_expression`; `answer` is what reading the strategy gives, unless it raises. -/
def currentRouteExpression (answer : Option (Option Expression)) : Expression :=
  if ¬ cluster.active ∨ ¬ cluster.hasCredentials then .empty
  else (answer.getD none).getD .empty

/-- A rule that Suite Cloud did not write. -/
def Rule.isForeign (rule : Rule) : Bool :=
  !isSuiteTarget (rule.target.getD "") && decide (rule.target ≠ some localTarget)

/-- The rule of a pool's domains. -/
def poolRule (entry : String × List String) : Rule :=
  ⟨.anyOf (entry.2.map .senderDomainIs), some (routeName site entry.1)⟩

/-- What nothing else matches. -/
def fallback (current : Expression) (default : Option String) : String :=
  let found := (current.otherwise.filter (· ≠ "")).getD mxTarget
  match default with
  | some pool => routeName site pool
  | none => if isSuiteTarget found then mxTarget else found

/-- **`route_expression`.** -/
def routeExpression (current : Expression) (grouped : Dict String (List String))
    (default : Option String) : Expression where
  rules := asList (localRules (relayingDomains site cluster) ++ grouped.map (poolRule site) ++
    (expressionRules current).filter Rule.isForeign)
  otherwise := some (fallback site current default)

/-- A Relay route. -/
structure Relay where
  description : String
  address : String
  port : ℕ
  authUsername : String
  authSecret : String
  deriving DecidableEq

inductive Operation
  /-- `upsert` of `MtaRoute`, matched on the names. -/
  | upsertRoutes (routes : Dict String Relay)
  /-- `update` of `MtaOutboundStrategy`. -/
  | updateStrategy (route : Expression)

/-- The name of a pool's relay route. -/
def relayName (pool : EgressIPPool) : String := "egress-" ++ pool.poolName

def relayRoute (pool : EgressIPPool) : Relay where
  description := "Egress pool " ++ pool.poolName
  address := pool.hostname
  port := pool.relayPort
  authUsername := (cluster.relayUsername.filter (· ≠ "")).getD "relay"
  authSecret := cluster.relayPassword

/-- `overrides`: the groups of the pools that are not the default. -/
def overridesOf : Dict String (List String) :=
  (domainsByPool site cluster).filter fun entry => some entry.1 ≠ defaultPool site cluster

/-- `pools`: the names of the pools in use. -/
def poolsInUse : List String :=
  (domainsByPool site cluster).keys ++ (defaultPool site cluster).toList

/-- **`cluster_operations`.** -/
def clusterOperations (answer : Option (Option Expression)) : List Operation :=
  let current := currentRouteExpression cluster answer
  if poolsInUse site cluster = [] then
    [.updateStrategy (routeExpression site cluster current [] none)]
  else
    let used := ((poolsInUse site cluster).dedup.mergeSort fun a b => a ≤ b).filterMap (findPool site)
    [.upsertRoutes (Dict.ofList (used.map fun pool => (relayName pool, relayRoute cluster pool))),
      .updateStrategy (routeExpression site cluster current (overridesOf site cluster)
        (defaultPool site cluster))]

/-! ## Where a message should go -/

section Meaning

variable (directory : Directory) (heldHolds : String → Message → Bool) (message : Message)

def Comparison.holds : Comparison → Bool
  | .rcptDomainIsLocal => directory.isLocalDomain message.rcpt.domain
  | .rcptIsLocal => directory.isLocalAddress message.rcpt
  | .senderDomainIs domain => message.senderDomain = domain
  | .rcptDomainIsNot domain => message.rcpt.domain ≠ domain

/-- Whether a condition holds of a message; `heldHolds` says it of a text that the cluster holds. -/
def Condition.holds : Condition → Bool
  | .anyOf comparisons => comparisons.any (Comparison.holds directory message)
  | .allOf comparisons => comparisons.all (Comparison.holds directory message)
  | .held text => heldHolds text message

/-- The first rule of a list that holds. -/
def firstOf (rules : List Rule) : Option Rule :=
  rules.find? fun rule => rule.condition.holds directory heldHolds message

/-- **The first rule that holds decides.** -/
def Expression.evaluate (expression : Expression) : Option String :=
  ((firstOf directory heldHolds message (expressionRules expression)).map Rule.target).getD
    expression.otherwise

/-- The cluster delivers it itself: to an address it holds, or on a domain it holds that does not relay. -/
def IsLocal : Prop :=
  directory.isLocalAddress message.rcpt = true ∨
    (directory.isLocalDomain message.rcpt.domain = true ∧
      ¬ ∃ domain ∈ site.domains, domain.cluster = cluster.name ∧ domain.enabled = true ∧
        domain.allowRelaying = true ∧ domain.domainName = message.rcpt.domain)

instance decidableIsLocal : Decidable (IsLocal site cluster directory message) :=
  inferInstanceAs (Decidable (_ ∨ (_ ∧ ¬ _)))

/-- The pool of the sender's own: of an enabled domain of the cluster, whose pool has addresses and is not
the default. -/
def senderPool : Option String :=
  ((site.domains.find? fun domain => domain.cluster = cluster.name ∧ domain.enabled ∧
    domain.domainName = message.senderDomain).bind (effectivePool site cluster)).filter fun pool =>
      pool ∈ populatedPools site cluster ∧ some pool ≠ defaultPool site cluster

/-- The rules of the expression that somebody else put there. -/
def foreignRules (current : Expression) : List Rule := (expressionRules current).filter Rule.isForeign

/-- What the cluster holds for all else, where that is no egress pool; or `'mx'`. -/
def foreignElse (current : Expression) : String :=
  ((current.otherwise.filter (· ≠ "")).filter fun text => !isSuiteTarget text).getD mxTarget

/-- **Where a message should go.** -/
def rightRoute (current : Expression) : Option String :=
  if IsLocal site cluster directory message then some localTarget
  else
    match senderPool site cluster message with
    | some pool => some (routeName site pool)
    | none =>
      match firstOf directory heldHolds message (foreignRules current) with
      | some rule => rule.target
      | none =>
        match defaultPool site cluster with
        | some pool => some (routeName site pool)
        | none => some (foreignElse current)

end Meaning

/-! ## The expression -/

section Proofs

variable {site : Site} {cluster : StalwartCluster} {directory : Directory}
  {heldHolds : String → Message → Bool} {message : Message}

theorem expressionRules_asList (rules : List Rule) (otherwise : Option String) :
    expressionRules ⟨asList rules, otherwise⟩ = rules := by
  have sorted : (rules.zipIdx.map Prod.swap).Pairwise fun a b => decide (a.1 ≤ b.1) = true := by
    rw [List.pairwise_map]
    have indices : (rules.zipIdx.map Prod.snd).Pairwise (· ≤ ·) := by
      rw [List.zipIdx_map_snd]
      exact List.pairwise_le_range'
    rw [List.pairwise_map] at indices
    exact indices.imp fun below => decide_eq_true below
  show ((rules.zipIdx.map Prod.swap).mergeSort fun a b => a.1 ≤ b.1).map Prod.snd = rules
  rw [List.mergeSort_of_pairwise sorted, List.map_map]
  exact List.zipIdx_map_fst 0 rules

theorem firstOf_append (first second : List Rule) :
    firstOf directory heldHolds message (first ++ second) =
      (firstOf directory heldHolds message first).or (firstOf directory heldHolds message second) :=
  List.find?_append

theorem mem_enabledDomains {domain : MailDomain} : domain ∈ enabledDomains site cluster ↔
    domain ∈ site.domains ∧ domain.cluster = cluster.name ∧ domain.enabled = true := by
  rw [enabledDomains, List.mem_mergeSort, List.mem_filter, decide_eq_true_iff]

theorem mem_relayingDomains {name : String} : name ∈ relayingDomains site cluster ↔
    ∃ domain ∈ site.domains, domain.cluster = cluster.name ∧ domain.enabled = true ∧
      domain.allowRelaying = true ∧ domain.domainName = name := by
  simp only [relayingDomains, List.mem_map, List.mem_filter, mem_enabledDomains]
  constructor
  · rintro ⟨domain, ⟨⟨there, ours, enabled⟩, relays⟩, same⟩
    exact ⟨domain, there, ours, enabled, relays, same⟩
  · rintro ⟨domain, there, ours, enabled, relays, same⟩
    exact ⟨domain, ⟨⟨there, ours, enabled⟩, relays⟩, same⟩

/-! ### Local delivery -/

theorem firstOf_localRules :
    (firstOf directory heldHolds message (localRules (relayingDomains site cluster))).map Rule.target =
      if IsLocal site cluster directory message then some (some localTarget) else none := by
  have apart : (∃ domain ∈ site.domains, domain.cluster = cluster.name ∧ domain.enabled = true ∧
      domain.allowRelaying = true ∧ domain.domainName = message.rcpt.domain) ↔
        message.rcpt.domain ∈ relayingDomains site cluster := mem_relayingDomains.symm
  rw [localRules, firstOf]
  simp only [IsLocal, apart]
  by_cases none : relayingDomains site cluster = []
  · -- Nothing relays: a held address lies on a held domain.
    simp only [none, List.not_mem_nil, not_false_eq_true, and_true]
    have within : (directory.isLocalAddress message.rcpt = true ∨
        directory.isLocalDomain message.rcpt.domain = true) ↔
          directory.isLocalDomain message.rcpt.domain = true :=
      or_iff_right_of_imp (directory.onDomain message.rcpt)
    simp only [within]
    by_cases held : directory.isLocalDomain message.rcpt.domain = true
    · simp [Condition.holds, Comparison.holds, held]
    · simp [Condition.holds, Comparison.holds, held]
  · simp only [if_neg none]
    have beside : (Condition.allOf (.rcptDomainIsLocal ::
        (relayingDomains site cluster).map .rcptDomainIsNot)).holds directory heldHolds message = true ↔
          directory.isLocalDomain message.rcpt.domain = true ∧
            message.rcpt.domain ∉ relayingDomains site cluster := by
      simp only [Condition.holds, List.all_cons, Comparison.holds, Bool.and_eq_true, List.all_eq_true,
        List.mem_map]
      refine and_congr_right fun _ => ⟨?_, ?_⟩
      · intro all member
        have differs := all _ ⟨_, member, rfl⟩
        simp at differs
      · rintro absent _ ⟨name, member, rfl⟩
        refine decide_eq_true ?_
        rintro rfl
        exact absent member
    by_cases address : directory.isLocalAddress message.rcpt = true
    · simp [Condition.holds, Comparison.holds, address]
    · have missed : (Condition.allOf [.rcptIsLocal]).holds directory heldHolds message = false := by
        simp [Condition.holds, Comparison.holds, address]
      rw [List.find?_cons, missed, List.find?_cons]
      by_cases domain : directory.isLocalDomain message.rcpt.domain = true ∧
          message.rcpt.domain ∉ relayingDomains site cluster
      · simp [beside.mpr domain, address, domain]
      · have neither : ¬ (directory.isLocalAddress message.rcpt = true ∨
            (directory.isLocalDomain message.rcpt.domain = true ∧
              message.rcpt.domain ∉ relayingDomains site cluster)) := not_or.mpr ⟨address, domain⟩
        rw [Bool.eq_false_iff.mpr (mt beside.mp domain), if_neg neither]
        rfl

/-! ### The pools of the senders -/

theorem mem_domainsByPool {pool : String} {names : List String}
    (member : (pool, names) ∈ domainsByPool site cluster) (name : String) :
    name ∈ names ↔ ∃ domain ∈ enabledDomains site cluster, domain.domainName = name ∧
      effectivePool site cluster domain = some pool ∧ pool ∈ populatedPools site cluster := by
  have found := (Dict.get_eq_some Dict.nodup_keys_groupBy).mpr member
  rw [Dict.get_groupBy found]
  simp only [List.mem_map, List.mem_filter, List.mem_filterMap, decide_eq_true_eq,
    Option.map_eq_some_iff, Option.filter_eq_some_iff]
  constructor
  · rintro ⟨_, ⟨⟨domain, there, _, ⟨effective, populated⟩, rfl⟩, rfl⟩, rfl⟩
    exact ⟨domain, there, rfl, effective, populated⟩
  · rintro ⟨domain, there, rfl, effective, populated⟩
    exact ⟨_, ⟨⟨domain, there, pool, ⟨effective, populated⟩, rfl⟩, rfl⟩, rfl⟩

theorem mem_keys_domainsByPool {pool : String} : pool ∈ (domainsByPool site cluster).keys ↔
    pool ∈ populatedPools site cluster ∧
      ∃ domain ∈ enabledDomains site cluster, effectivePool site cluster domain = some pool := by
  rw [domainsByPool, Dict.mem_keys_groupBy]
  simp only [List.mem_filterMap, Option.map_eq_some_iff, Option.filter_eq_some_iff, decide_eq_true_eq,
    Prod.mk.injEq]
  constructor
  · rintro ⟨_, domain, there, _, ⟨effective, populated⟩, rfl, rfl⟩
    exact ⟨populated, domain, there, effective⟩
  · rintro ⟨populated, domain, there, effective⟩
    exact ⟨_, domain, there, pool, ⟨effective, populated⟩, rfl, rfl⟩

theorem senderPool_eq_some {pool : String} : senderPool site cluster message = some pool ↔
    ∃ domain ∈ enabledDomains site cluster, domain.domainName = message.senderDomain ∧
      effectivePool site cluster domain = some pool ∧ pool ∈ populatedPools site cluster ∧
        some pool ≠ defaultPool site cluster := by
  simp only [senderPool, Option.filter_eq_some_iff, Option.bind_eq_some_iff, decide_eq_true_eq,
    mem_enabledDomains]
  constructor
  · rintro ⟨⟨domain, found, effective⟩, fits⟩
    have matched := List.find?_some found
    have facts := of_decide_eq_true matched
    exact ⟨domain, ⟨List.mem_of_find?_eq_some found, facts.1, facts.2.1⟩, facts.2.2, effective, fits⟩
  · rintro ⟨domain, ⟨there, ours, enabled⟩, name, effective, fits⟩
    refine ⟨⟨domain, ?_, effective⟩, fits⟩
    cases found : site.domains.find? fun domain => domain.cluster = cluster.name ∧ domain.enabled ∧
        domain.domainName = message.senderDomain with
    | none =>
      have absent := List.find?_eq_none.mp found domain there
      exact absurd (decide_eq_true ⟨ours, enabled, name⟩) absent
    | some other =>
      have matched := List.find?_some found
      have facts := of_decide_eq_true matched
      have same := List.inj_on_of_nodup_map site.domainsNamed (List.mem_of_find?_eq_some found) there
        (facts.2.2.trans name.symm)
      rw [same]

theorem poolRule_holds (entry : String × List String) :
    (poolRule site entry).condition.holds directory heldHolds message = true ↔
      message.senderDomain ∈ entry.2 := by
  simp only [poolRule, Condition.holds, List.any_map, List.any_eq_true, Function.comp_apply,
    Comparison.holds, decide_eq_true_eq, exists_eq_right']

theorem firstOf_poolRules :
    (firstOf directory heldHolds message ((overridesOf site cluster).map (poolRule site))).map Rule.target =
      (senderPool site cluster message).map fun pool => some (routeName site pool) := by
  rw [firstOf, List.find?_map, Option.map_map]
  cases matched : (overridesOf site cluster).find? ((fun rule : Rule =>
      rule.condition.holds directory heldHolds message) ∘ poolRule site) with
  | none =>
    cases pool : senderPool site cluster message with
    | none => rfl
    | some found =>
      obtain ⟨domain, there, name, effective, populated, other⟩ := senderPool_eq_some.mp pool
      have key : found ∈ (domainsByPool site cluster).keys :=
        mem_keys_domainsByPool.mpr ⟨populated, domain, there, effective⟩
      obtain ⟨⟨own, names⟩, member, rfl⟩ := List.mem_map.mp key
      have override : (own, names) ∈ overridesOf site cluster :=
        List.mem_filter.mpr ⟨member, decide_eq_true other⟩
      have sender : message.senderDomain ∈ names :=
        (mem_domainsByPool member _).mpr ⟨domain, there, name, effective, populated⟩
      have holds : (poolRule site (own, names)).condition.holds directory heldHolds message = true :=
        (poolRule_holds _).mpr sender
      exact absurd holds (List.find?_eq_none.mp matched _ override)
  | some entry =>
    obtain ⟨member, other⟩ := List.mem_filter.mp (List.mem_of_find?_eq_some matched)
    have first := List.find?_some matched
    have holds : (poolRule site entry).condition.holds directory heldHolds message = true := first
    have sender := (poolRule_holds entry).mp holds
    obtain ⟨domain, there, name, effective, populated⟩ := (mem_domainsByPool member _).mp sender
    have pool : senderPool site cluster message = some entry.1 :=
      senderPool_eq_some.mpr ⟨domain, there, name, effective, populated, of_decide_eq_true other⟩
    rw [pool]
    rfl

/-! ### All of it -/

theorem fallback_default (current : Expression) (pool : String) :
    fallback site current (some pool) = routeName site pool := rfl

theorem fallback_none (current : Expression) : fallback site current none = foreignElse current := by
  rw [fallback, foreignElse]
  cases current.otherwise.filter (· ≠ "") with
  | none => rfl
  | some text =>
    show (if isSuiteTarget text = true then mxTarget else text) =
      ((some text).filter fun text => !isSuiteTarget text).getD mxTarget
    by_cases suite : isSuiteTarget text = true
    · rw [if_pos suite, Option.filter_some, suite]
      rfl
    · rw [if_neg suite, Option.filter_some, Bool.eq_false_iff.mpr suite]
      rfl

/-- **The expression sends every message where it should go.** -/
theorem evaluate_routeExpression (current : Expression) :
    (routeExpression site cluster current (overridesOf site cluster) (defaultPool site cluster)).evaluate
      directory heldHolds message = rightRoute site cluster directory heldHolds message current := by
  have lists : expressionRules (routeExpression site cluster current (overridesOf site cluster)
      (defaultPool site cluster)) = localRules (relayingDomains site cluster) ++
        (overridesOf site cluster).map (poolRule site) ++ foreignRules current :=
    expressionRules_asList _ _
  rw [Expression.evaluate, lists, firstOf_append, firstOf_append, Option.map_or, Option.map_or,
    firstOf_localRules, firstOf_poolRules, rightRoute]
  by_cases held : IsLocal site cluster directory message
  · rw [if_pos held, if_pos held]
    rfl
  · rw [if_neg held, if_neg held]
    cases senderPool site cluster message with
    | some pool => rfl
    | none =>
      cases firstOf directory heldHolds message (foreignRules current) with
      | some rule => rfl
      | none =>
        show some (fallback site current (defaultPool site cluster)) = _
        cases defaultPool site cluster with
        | some pool => rfl
        | none => exact congrArg some (fallback_none current)

theorem routeName_ne_local (name : String) : routeName site name ≠ localTarget := by
  intro same
  have second := congrArg (fun text => text.toList[1]?) same
  simp [routeName, suiteRulePrefix, localTarget, String.toList_append] at second

theorem foreign_target {current : Expression} {rule : Rule} (foreign : rule ∈ foreignRules current) :
    isSuiteTarget (rule.target.getD "") = false ∧ rule.target ≠ some localTarget := by
  have fits := (List.mem_filter.mp foreign).2
  rw [Rule.isForeign, Bool.and_eq_true, Bool.not_eq_true', decide_eq_true_iff] at fits
  exact fits

/-- **What is kept on the cluster**: what it delivers itself, and what nothing matches where the expression
it held was local for that. -/
theorem rightRoute_eq_local (current : Expression) :
    rightRoute site cluster directory heldHolds message current = some localTarget ↔
      IsLocal site cluster directory message ∨
        (senderPool site cluster message = none ∧
          firstOf directory heldHolds message (foreignRules current) = none ∧
            defaultPool site cluster = none ∧ foreignElse current = localTarget) := by
  rw [rightRoute]
  by_cases held : IsLocal site cluster directory message
  · simp [held]
  · rw [if_neg held, or_iff_right held]
    cases senderPool site cluster message with
    | some pool => simp [routeName_ne_local]
    | none =>
      cases found : firstOf directory heldHolds message (foreignRules current) with
      | some rule =>
        have foreign := (foreign_target (List.mem_of_find?_eq_some found)).2
        simp [foreign]
      | none =>
        cases defaultPool site cluster with
        | some pool => simp [routeName_ne_local]
        | none => simp

/-! ### The relay routes -/

/-- The targets of an expression. -/
def Expression.targets (expression : Expression) : List String :=
  (expressionRules expression).filterMap Rule.target ++ expression.otherwise.toList

/-- The expressions that operations write. -/
def strategies (operations : List Operation) : List Expression :=
  operations.filterMap fun
    | .updateStrategy route => some route
    | .upsertRoutes _ => none

/-- The routes that operations upsert. -/
def relays (operations : List Operation) : List (String × Relay) :=
  operations.flatMap fun
    | .upsertRoutes routes => routes
    | .updateStrategy _ => []

variable (site cluster) in
/-- A pool of the cluster has its relay route among the operations, under the name a target gives. -/
def Relayed (operations : List Operation) (target : String) : Prop :=
  ∃ pool ∈ site.pools, pool.cluster = cluster.name ∧ target = "'" ++ relayName pool ++ "'" ∧
    (relayName pool, relayRoute cluster pool) ∈ relays operations

theorem mem_populatedPools {name : String} : name ∈ populatedPools site cluster ↔
    ∃ pool ∈ site.pools, pool.cluster = cluster.name ∧ pool.addresses ≠ [] ∧ pool.name = name := by
  simp only [populatedPools, List.mem_map, List.mem_filter, decide_eq_true_eq, and_assoc]

theorem findPool_eq_some {pool : EgressIPPool} (there : pool ∈ site.pools) :
    findPool site pool.name = some pool := by
  cases found : findPool site pool.name with
  | none =>
    have absent := List.find?_eq_none.mp found pool there
    exact absurd (decide_eq_true rfl) absent
  | some other =>
    have matched := List.find?_some found
    have same := of_decide_eq_true matched
    rw [List.inj_on_of_nodup_map site.poolsNamed (List.mem_of_find?_eq_some found) there same]

theorem mem_poolsInUse {name : String} (used : name ∈ poolsInUse site cluster) :
    name ∈ populatedPools site cluster := by
  rcases List.mem_append.mp used with grouped | default
  · exact (mem_keys_domainsByPool.mp grouped).1
  · rw [Option.mem_toList] at default
    exact of_decide_eq_true (Option.filter_eq_some_iff.mp default).2

theorem relayed_of_used {name : String} (used : name ∈ poolsInUse site cluster)
    (answer : Option (Option Expression)) :
    Relayed site cluster (clusterOperations site cluster answer) (routeName site name) := by
  obtain ⟨pool, there, ours, -, rfl⟩ := mem_populatedPools.mp (mem_poolsInUse used)
  have known := findPool_eq_some there
  refine ⟨pool, there, ours, ?_, ?_⟩
  · rw [routeName, known]
    refine String.toList_inj.mp ?_
    simp [relayName, suiteRulePrefix, String.toList_append]
  · have some : poolsInUse site cluster ≠ [] := List.ne_nil_of_mem used
    rw [clusterOperations, if_neg some]
    set found := ((poolsInUse site cluster).dedup.mergeSort fun a b => a ≤ b).filterMap (findPool site)
      with foundIs
    have among : pool ∈ found := by
      rw [foundIs, List.mem_filterMap]
      exact ⟨pool.name, List.mem_mergeSort.mpr (List.mem_dedup.mpr used), known⟩
    have alike : ∀ other ∈ found, relayName other = relayName pool → other = pool := by
      intro other member same
      rw [foundIs, List.mem_filterMap] at member
      obtain ⟨name, sorted, isOther⟩ := member
      have inUse := List.mem_dedup.mp (List.mem_mergeSort.mp sorted)
      obtain ⟨other', there', ours', -, rfl⟩ := mem_populatedPools.mp (mem_poolsInUse inUse)
      rw [findPool_eq_some there'] at isOther
      obtain rfl := Option.some.inj isOther
      have names : other'.poolName = pool.poolName := by
        have chars := congrArg String.toList same
        rw [relayName, relayName, String.toList_append, String.toList_append] at chars
        exact String.toList_inj.mp (List.append_cancel_left chars)
      exact List.inj_on_of_nodup_map site.poolsOfCluster there' there
        (Prod.ext (ours'.trans ours.symm) names)
    have key : relayName pool ∈ (Dict.ofList (found.map fun pool =>
        (relayName pool, relayRoute cluster pool))).keys := by
      rw [Dict.mem_keys_ofList, List.map_map]
      exact List.mem_map.mpr ⟨pool, among, rfl⟩
    obtain ⟨⟨_, relay⟩, entry, rfl⟩ := List.mem_map.mp key
    obtain ⟨other, member, same⟩ := List.mem_map.mp (Dict.mem_of_mem_ofList entry)
    obtain ⟨named, rfl⟩ := Prod.mk.inj same
    obtain rfl := alike other member named
    exact List.mem_append_left _ entry

theorem poolsInUse_eq_nil (none : poolsInUse site cluster = []) :
    overridesOf site cluster = [] ∧ defaultPool site cluster = Option.none := by
  obtain ⟨groups, default⟩ := List.append_eq_nil_iff.mp none
  refine ⟨?_, Option.toList_eq_nil_iff.mp default⟩
  rw [overridesOf, List.map_eq_nil_iff.mp groups, List.filter_nil]

theorem strategies_clusterOperations (answer : Option (Option Expression)) :
    strategies (clusterOperations site cluster answer) =
      [routeExpression site cluster (currentRouteExpression cluster answer) (overridesOf site cluster)
        (defaultPool site cluster)] := by
  rw [clusterOperations]
  by_cases none : poolsInUse site cluster = []
  · obtain ⟨groups, default⟩ := poolsInUse_eq_nil none
    rw [if_pos none, groups, default]
    rfl
  · rw [if_neg none]
    rfl

theorem route_of_pool {answer : Option (Option Expression)} {routes : Dict String Relay}
    {entry : String × Relay} (among : .upsertRoutes routes ∈ clusterOperations site cluster answer)
    (member : entry ∈ routes) : ∃ pool, entry = (relayName pool, relayRoute cluster pool) := by
  rw [clusterOperations] at among
  split at among
  · cases List.mem_singleton.mp among
  · rcases List.mem_cons.mp among with same | last
    · obtain rfl := Operation.upsertRoutes.inj same
      obtain ⟨pool, -, rfl⟩ := List.mem_map.mp (Dict.mem_of_mem_ofList member)
      exact ⟨pool, rfl⟩
    · cases List.mem_singleton.mp last

theorem suite_target {current : Expression} {target : String} (member : target ∈ Expression.targets
      (routeExpression site cluster current (overridesOf site cluster) (defaultPool site cluster)))
    (suite : isSuiteTarget target = true) :
    ∃ name ∈ poolsInUse site cluster, target = routeName site name := by
  rcases List.mem_append.mp member with ofRule | last
  · obtain ⟨rule, there, isTarget⟩ := List.mem_filterMap.mp ofRule
    rw [routeExpression, expressionRules_asList, List.mem_append, List.mem_append] at there
    rcases there with (local_ | ofPool) | foreign
    · have isLocal : rule.target = some localTarget := by
        rw [localRules] at local_
        split at local_
        · rw [List.mem_singleton.mp local_]
        · rcases List.mem_cons.mp local_ with rfl | local_
          · rfl
          · rw [List.mem_singleton.mp local_]
      obtain rfl := Option.some.inj (isLocal.symm.trans isTarget)
      exact absurd suite (by decide)
    · obtain ⟨⟨name, names⟩, entry, rfl⟩ := List.mem_map.mp ofPool
      obtain rfl := Option.some.inj isTarget
      refine ⟨name, List.mem_append_left _ ?_, rfl⟩
      exact List.mem_map_of_mem (List.mem_filter.mp entry).1
    · have other := (foreign_target foreign).1
      rw [isTarget] at other
      exact absurd suite (Bool.eq_false_iff.mp other)
  · rw [Option.mem_toList] at last
    obtain rfl := Option.some.inj last
    cases default : defaultPool site cluster with
    | some name =>
      refine ⟨name, List.mem_append_right _ ?_, fallback_default current name⟩
      rw [default]
      exact List.mem_singleton_self _
    | none =>
      rw [default, fallback_none] at suite
      have other : isSuiteTarget (foreignElse current) = false := by
        rw [foreignElse]
        cases found : (current.otherwise.filter (· ≠ "")).filter fun text => !isSuiteTarget text with
        | none => decide
        | some text =>
          have fits := (Option.filter_eq_some_iff.mp found).2
          rwa [Bool.not_eq_true'] at fits
      exact absurd suite (Bool.eq_false_iff.mp other)

end Proofs

/-- **Mail leaves by the right route.** The operations write one expression; it sends every message where
it should go, of the expression that was read; it keeps on the cluster what the cluster delivers itself,
and beside that only what nothing else matches where the expression that was read kept it; and each egress
pool it names has its relay route among the operations. -/
theorem routes_right (site : Site) (cluster : StalwartCluster) (answer : Option (Option Expression))
    (directory : Directory) (heldHolds : String → Message → Bool) :
    ∃ expression, strategies (clusterOperations site cluster answer) = [expression] ∧
      (∀ message, expression.evaluate directory heldHolds message =
        rightRoute site cluster directory heldHolds message (currentRouteExpression cluster answer)) ∧
      (∀ message, expression.evaluate directory heldHolds message = some localTarget ↔
        IsLocal site cluster directory message ∨
          (senderPool site cluster message = none ∧
            firstOf directory heldHolds message
              (foreignRules (currentRouteExpression cluster answer)) = none ∧
            defaultPool site cluster = none ∧
            foreignElse (currentRouteExpression cluster answer) = localTarget)) ∧
      ∀ target ∈ expression.targets, isSuiteTarget target = true →
        Relayed site cluster (clusterOperations site cluster answer) target := by
  refine ⟨_, strategies_clusterOperations answer, fun message => evaluate_routeExpression _, ?_, ?_⟩
  · intro message
    rw [evaluate_routeExpression, rightRoute_eq_local]
  · intro target member suite
    obtain ⟨name, used, rfl⟩ := suite_target member suite
    exact relayed_of_used used answer

/-- **A fallback that is local stays**: the cluster held an expression that is local where nothing matches,
and has no pools; mail for a domain it does not hold stays on it. -/
theorem fallback_local :
    ∃ (site : Site) (cluster : StalwartCluster) (held : Expression) (directory : Directory)
      (message : Message) (expression : Expression),
      currentRouteExpression cluster (some (some held)) = held ∧
      strategies (clusterOperations site cluster (some (some held))) = [expression] ∧
      expression.evaluate directory (fun _ _ => false) message = some localTarget ∧
      directory.isLocalAddress message.rcpt = false ∧
      directory.isLocalDomain message.rcpt.domain = false := by
  refine ⟨⟨[], [], [], List.nodup_nil, List.nodup_nil, List.nodup_nil, List.nodup_nil⟩,
    ⟨"mail.bom.frappemail.com", true, true, none, none, "secret"⟩, ⟨.indexed [], some "'local'"⟩,
    ⟨fun _ => false, fun _ => false, fun _ => id⟩, ⟨"acme.com", ⟨"ada", "example.com"⟩⟩, _, ?_,
    strategies_clusterOperations _, ?_⟩
  · rfl
  · decide +kernel

end SuiteCloud.Mail.Cluster.Routes
