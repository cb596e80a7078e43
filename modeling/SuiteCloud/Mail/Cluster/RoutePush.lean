/-
**What a push of the routes keeps of somebody else's.**

`apply_config` renders the plan and applies it. The route expression is rebuilt from a read of the
cluster's strategy; where the read fails it is rebuilt from nothing. What is written went through
`PlanApplier._resolve`, which takes a text that begins with `#` for a label of the plan.

* `pushRoute` — the expression a push writes, if it writes one.
* `Keeps` — the foreign rules the cluster held are there in their order, and so is a foreign `else`
  where no default pool replaces it.
* `Spared` — no foreign text is lost to a failed read or to a label.
* `route_push_keeps_iff` — **a push keeps what is not its own exactly where it is spared.**
* `foreign_rules_last` — over a run of pushes.
* `dropped_by_failed_read` — one read that fails.
-/

import SuiteCloud.Library.Maps
import SuiteCloud.Library.Transition
import SuiteCloud.Mail.Cluster.Routes
import SuiteCloud.Mail.Stalwart.Value

namespace SuiteCloud.Mail.Cluster.Routes

open SuiteCloud.Library
open SuiteCloud.Mail.Stalwart (Ids labelOf resolveText)

/-! ## The push -/

/-- A rule as it is sent. -/
structure SentRule where
  /-- `if`. -/
  condition : String
  /-- `then`. -/
  target : Option String
  deriving DecidableEq

def Rule.sent (rule : Rule) : SentRule := ⟨rule.condition.text, rule.target⟩

/-- A rule as it is read back. -/
def SentRule.held (rule : SentRule) : Rule := ⟨.held rule.condition, rule.target⟩

/-- `_resolve` of what is not there or a text. -/
def resolveOptional (ids : Ids) : Option String → Option (Option String)
  | none => some none
  | some text => (resolveText ids text).map some

def SentRule.resolve (ids : Ids) (rule : SentRule) : Option SentRule :=
  (resolveText ids rule.condition).bind fun condition =>
    (resolveOptional ids rule.target).map fun target => ⟨condition, target⟩

/-- The rules of an expression as they are sent. -/
def sentRules (expression : Expression) : List SentRule := (expressionRules expression).map Rule.sent

/-- **`_resolve`** of the expression. -/
def Expression.resolve (ids : Ids) (expression : Expression) : Option Expression :=
  ((sentRules expression).mapM (SentRule.resolve ids)).bind fun rules =>
    (resolveOptional ids expression.otherwise).map fun otherwise =>
      ⟨asList (rules.map SentRule.held), otherwise⟩

/-- What reading the strategy gives: the route it holds, unless it raises. -/
def readRoute (held : Option Expression) (fails : Bool) : Option (Option Expression) :=
  if fails then none else some held

variable (site : Site) (cluster : StalwartCluster)

/-- **The route a push writes**; `earlier` are the ids of the operations before it, unless one of them
fails. Without credentials there is no client to push with. -/
def pushRoute (held : Option Expression) (fails : Bool) (earlier : Option Ids) : Option Expression :=
  if ¬ cluster.active ∨ ¬ cluster.hasCredentials then none
  else earlier.bind fun ids =>
    (strategies (clusterOperations site cluster (readRoute held fails))).head?.bind
      (Expression.resolve ids)

/-! ## What is not its own -/

/-- The rules of the route the cluster holds that Suite Cloud did not write, as they are sent. -/
def foreignSent (held : Expression) : List SentRule := (foreignRules held).map Rule.sent

/-- An `else` that Suite Cloud did not write. -/
def IsForeignElse (held : Expression) (text : String) : Prop :=
  held.otherwise = some text ∧ text ≠ "" ∧ isSuiteTarget text = false

/-- **Nothing foreign is lost.** -/
structure Keeps (held written : Expression) : Prop where
  rules : (foreignSent held).Sublist (sentRules written)
  otherwise : defaultPool site cluster = none →
    ∀ text, IsForeignElse held text → written.otherwise = some text

/-- The texts of a rule. -/
def SentRule.texts (rule : SentRule) : List String := rule.condition :: rule.target.toList

/-- The foreign texts that a push writes again. -/
def foreignTexts (held : Expression) : List String :=
  (foreignSent held).flatMap SentRule.texts ++
    if defaultPool site cluster = none then [foreignElse held] else []

/-- **The condition**: a read that fails finds nothing foreign to lose, and no foreign text is a label of
an operation before, unless another one is a label of none, so that the push raises. -/
def Spared (held : Expression) (fails : Bool) (earlier : Option Ids) : Prop :=
  cluster.hasCredentials = true → ∀ ids ∈ earlier,
    if fails then foreignRules held = [] ∧ (defaultPool site cluster = none → foreignElse held = mxTarget)
    else (∃ text ∈ foreignTexts site cluster held, resolveText ids text = none) ∨
      ∀ text ∈ foreignTexts site cluster held, resolveText ids text = some text

variable {site cluster} {ids : Ids} {held written : Expression}

/-! ### Texts of its own -/

theorem resolveText_of_ne {text : String} (plain : text.toList.head? ≠ some '#') :
    resolveText ids text = some text := by
  have none : labelOf text = none := by
    rw [labelOf]
    split
    · rename_i label same
      rw [same] at plain
      exact absurd rfl plain
    · rfl
  rw [resolveText, none]

/-- A text that is not empty and no label. -/
def Plain (text : String) : Prop := ∃ first rest, text.toList = first :: rest ∧ first ≠ '#'

theorem Plain.resolve {text : String} (plain : Plain text) : resolveText ids text = some text := by
  obtain ⟨first, rest, chars, differs⟩ := plain
  refine resolveText_of_ne ?_
  rw [chars]
  exact fun same => differs (Option.some.inj same)

theorem Plain.append {text : String} (plain : Plain text) (rest : String) : Plain (text ++ rest) := by
  obtain ⟨first, others, chars, differs⟩ := plain
  exact ⟨first, others ++ rest.toList, by rw [String.toList_append, chars, List.cons_append], differs⟩

theorem comparison_plain (comparison : Comparison) : Plain comparison.text := by
  cases comparison with
  | rcptDomainIsLocal => exact ⟨'i', _, rfl, by decide⟩
  | rcptIsLocal => exact ⟨'i', _, rfl, by decide⟩
  | senderDomainIs domain =>
    have plain : Plain "sender_domain == '" := ⟨'s', _, rfl, by decide⟩
    exact (plain.append domain).append "'"
  | rcptDomainIsNot domain =>
    have plain : Plain "rcpt_domain != '" := ⟨'r', _, rfl, by decide⟩
    exact (plain.append domain).append "'"

theorem resolve_comparisons (separator : String) (comparisons : List Comparison) :
    resolveText ids (separator.intercalate (comparisons.map Comparison.text)) =
      some (separator.intercalate (comparisons.map Comparison.text)) := by
  cases comparisons with
  | nil => exact resolveText_of_ne (by simp)
  | cons first rest =>
    cases rest with
    | nil =>
      rw [List.map_singleton, String.intercalate_singleton]
      exact (comparison_plain first).resolve
    | cons second others =>
      rw [List.map_cons, String.intercalate_cons_of_ne_nil (by simp)]
      exact (((comparison_plain first).append _).append _).resolve

theorem routeName_plain (name : String) : Plain (routeName site name) := by
  have plain : Plain suiteRulePrefix := ⟨'\'', _, rfl, by decide⟩
  exact (plain.append _).append _

theorem mxTarget_plain : Plain mxTarget := ⟨'\'', _, rfl, by decide⟩

theorem resolve_own {rule : Rule}
    (own : rule ∈ localRules (relayingDomains site cluster) ++
      (overridesOf site cluster).map (poolRule site)) :
    rule.sent.resolve ids = some rule.sent ∧ rule.isForeign = false := by
  rcases List.mem_append.mp own with local_ | pool
  · have localPlain : Plain localTarget := ⟨'\'', _, rfl, by decide⟩
    have shape : ∃ comparisons, rule = ⟨.allOf comparisons, some localTarget⟩ := by
      rw [localRules] at local_
      split at local_
      · exact ⟨_, List.mem_singleton.mp local_⟩
      · rcases List.mem_cons.mp local_ with same | local_
        · exact ⟨_, same⟩
        · exact ⟨_, List.mem_singleton.mp local_⟩
    obtain ⟨comparisons, rfl⟩ := shape
    refine ⟨?_, by simp [Rule.isForeign]⟩
    simp only [Rule.sent, SentRule.resolve, Condition.text, resolve_comparisons, resolveOptional,
      localPlain.resolve, Option.bind_some, Option.map_some]
  · obtain ⟨entry, -, rfl⟩ := List.mem_map.mp pool
    refine ⟨?_, ?_⟩
    · simp only [Rule.sent, poolRule, SentRule.resolve, Condition.text, resolve_comparisons, resolveOptional,
        (routeName_plain entry.1).resolve, Option.bind_some, Option.map_some]
    · have suite : isSuiteTarget (routeName site entry.1) = true := by
        rw [isSuiteTarget, routeName, String.toList_append, String.toList_append, List.append_assoc,
          List.isPrefixOf_iff_prefix]
        exact List.prefix_append _ _
      simp [Rule.isForeign, poolRule, suite]

/-! ### What is written -/

theorem sent_held (rule : SentRule) : rule.held.sent = rule := rfl

/-- The rules that Suite Cloud writes of its own. -/
def ownSent (site : Site) (cluster : StalwartCluster) : List SentRule :=
  (localRules (relayingDomains site cluster) ++ (overridesOf site cluster).map (poolRule site)).map Rule.sent

theorem resolve_ownSent : ∀ rule ∈ ownSent site cluster, rule.resolve ids = some rule := by
  intro rule member
  obtain ⟨own, there, rfl⟩ := List.mem_map.mp member
  exact (resolve_own there).1

theorem sentRules_routeExpression (current : Expression) :
    sentRules (routeExpression site cluster current (overridesOf site cluster) (defaultPool site cluster)) =
      ownSent site cluster ++ foreignSent current := by
  rw [sentRules, routeExpression, expressionRules_asList, List.map_append]
  rfl

theorem resolve_routeExpression (current : Expression) :
    (routeExpression site cluster current (overridesOf site cluster) (defaultPool site cluster)).resolve ids =
      ((foreignSent current).mapM (SentRule.resolve ids)).bind fun kept =>
        (resolveText ids (fallback site current (defaultPool site cluster))).map fun otherwise =>
          ⟨asList ((ownSent site cluster ++ kept).map SentRule.held), some otherwise⟩ := by
  rw [Expression.resolve, sentRules_routeExpression, mapM_append_of_self resolve_ownSent, Option.bind_map]
  cases (foreignSent current).mapM (SentRule.resolve ids) with
  | none => rfl
  | some kept =>
    simp only [Option.bind_some, Function.comp_apply, routeExpression, resolveOptional, Option.map_map]
    rfl

theorem sentRules_held (rules : List SentRule) (otherwise : Option String) :
    sentRules ⟨asList (rules.map SentRule.held), otherwise⟩ = rules := by
  rw [sentRules, expressionRules_asList, List.map_map]
  exact List.map_id rules

theorem foreignSent_sublist {kept : List SentRule} :
    (foreignSent held).Sublist (ownSent site cluster ++ kept) ↔ (foreignSent held).Sublist kept := by
  refine ⟨fun among => ?_, fun among => among.trans (List.sublist_append_right _ _)⟩
  obtain ⟨first, second, parts, own, later⟩ := List.sublist_append_iff.mp among
  have none_own : first = [] := by
    refine List.eq_nil_iff_forall_not_mem.mpr fun rule member => ?_
    obtain ⟨mine, there, same⟩ := List.mem_map.mp (own.subset member)
    have foreign : rule ∈ foreignSent held := parts ▸ List.mem_append_left _ member
    obtain ⟨other, among, same'⟩ := List.mem_map.mp foreign
    have targets : mine.target = other.target := congrArg SentRule.target (same.trans same'.symm)
    have differs := (List.mem_filter.mp among).2
    rw [Rule.isForeign, ← targets] at differs
    have settled : mine.sent.resolve (fun _ => none) = some mine.sent ∧ mine.isForeign = false :=
      resolve_own there
    exact absurd differs (Bool.eq_false_iff.mp settled.2)
  rw [parts, none_own]
  exact later

theorem foreignElse_cases (held : Expression) :
    IsForeignElse held (foreignElse held) ∨
      foreignElse held = mxTarget ∧ ∀ text, ¬ IsForeignElse held text := by
  have shown : ∀ text, IsForeignElse held text ↔
      (held.otherwise.filter (· ≠ "")).filter (fun text => !isSuiteTarget text) = some text := by
    intro text
    rw [Option.filter_eq_some_iff, Option.filter_eq_some_iff, decide_eq_true_iff, Bool.not_eq_true',
      and_assoc]
    rfl
  simp only [shown, foreignElse]
  cases (held.otherwise.filter (· ≠ "")).filter fun text => !isSuiteTarget text with
  | none => exact Or.inr ⟨rfl, fun text => (Option.some_ne_none text).symm⟩
  | some text => exact Or.inl rfl

theorem isForeignElse_eq {text : String} (foreign : IsForeignElse held text) : foreignElse held = text := by
  rcases foreignElse_cases held with own | ⟨-, absent⟩
  · exact Option.some.inj (own.1.symm.trans foreign.1)
  · exact absurd foreign (absent text)

theorem otherwise_iff {text : String} (resolved : resolveText ids (foreignElse held) = some text) :
    (∀ own, IsForeignElse held own → some text = some own) ↔
      resolveText ids (foreignElse held) = some (foreignElse held) := by
  constructor
  · intro same
    rcases foreignElse_cases held with foreign | ⟨plain, -⟩
    · rw [resolved, same _ foreign]
    · rw [plain, mxTarget_plain.resolve]
  · intro itself own foreign
    rw [← isForeignElse_eq foreign, ← resolved, itself]

theorem resolveOptional_eq_self {text : Option String} :
    resolveOptional ids text = some text ↔ ∀ own ∈ text.toList, resolveText ids own = some own := by
  cases text with
  | none => exact iff_of_true rfl nofun
  | some own => simp [resolveOptional]

theorem resolveOptional_eq_none {text : Option String} :
    resolveOptional ids text = none ↔ ∃ own ∈ text.toList, resolveText ids own = none := by
  cases text with
  | none => simp [resolveOptional]
  | some own => simp [resolveOptional]

theorem resolve_eq_self {rule : SentRule} :
    rule.resolve ids = some rule ↔ ∀ text ∈ rule.texts, resolveText ids text = some text := by
  rw [SentRule.resolve, SentRule.texts, List.forall_mem_cons, ← resolveOptional_eq_self]
  cases resolveText ids rule.condition with
  | none => simp
  | some condition =>
    cases resolveOptional ids rule.target with
    | none => simp
    | some target =>
      simp only [Option.bind_some, Option.map_some, Option.some.injEq]
      constructor
      · rintro rfl
        exact ⟨rfl, rfl⟩
      · rintro ⟨rfl, rfl⟩
        rfl

theorem resolve_eq_none {rule : SentRule} :
    rule.resolve ids = none ↔ ∃ text ∈ rule.texts, resolveText ids text = none := by
  rw [SentRule.resolve, SentRule.texts, List.exists_mem_cons_iff, ← resolveOptional_eq_none]
  cases resolveText ids rule.condition with
  | none => simp
  | some condition =>
    cases resolveOptional ids rule.target with
    | none => simp
    | some target => simp

/-! ### One push -/

section Push

variable {found : Option Expression} {fails : Bool} {earlier : Option Ids}

theorem pushRoute_eq (active : cluster.active = true) (credentials : cluster.hasCredentials = true)
    (held : Option Expression) (fails : Bool) (ids : Ids) :
    pushRoute site cluster held fails (some ids) =
      (routeExpression site cluster (if fails then .empty else held.getD .empty)
        (overridesOf site cluster) (defaultPool site cluster)).resolve ids := by
  have current : currentRouteExpression cluster (readRoute held fails) =
      if fails then .empty else held.getD .empty := by
    rw [currentRouteExpression, if_neg (by simp [active, credentials]), readRoute]
    cases fails <;> rfl
  rw [pushRoute, if_neg (by simp [active, credentials]), Option.bind_some, strategies_clusterOperations,
    List.head?_cons, Option.bind_some, current]

/-- **What is written keeps the foreign part** where that is written as it was. -/
theorem keeps_iff {kept : List SentRule} {otherwise : String}
    (short : kept.length ≤ (foreignSent held).length) :
    Keeps site cluster held ⟨asList ((ownSent site cluster ++ kept).map SentRule.held), some otherwise⟩ ↔
      kept = foreignSent held ∧
        (defaultPool site cluster = none → ∀ own, IsForeignElse held own → some otherwise = some own) := by
  constructor
  · intro keeps
    have among := keeps.rules
    rw [sentRules_held, foreignSent_sublist] at among
    exact ⟨(among.eq_of_length_le short).symm, keeps.otherwise⟩
  · rintro ⟨rfl, same⟩
    refine ⟨?_, same⟩
    rw [sentRules_held]
    exact List.sublist_append_right _ _

theorem otherwise_iff_mx :
    (∀ own, IsForeignElse held own → some mxTarget = some own) ↔ foreignElse held = mxTarget := by
  constructor
  · intro same
    rcases foreignElse_cases held with foreign | ⟨plain, -⟩
    · exact (Option.some.inj (same _ foreign)).symm
    · exact plain
  · intro mx own foreign
    rw [← mx, isForeignElse_eq foreign]

theorem keeps_after_failure (active : cluster.active = true) (credentials : cluster.hasCredentials = true)
    (found : Option Expression) (ids : Ids) :
    (∀ written, pushRoute site cluster found true (some ids) = some written →
        Keeps site cluster (found.getD .empty) written) ↔
      foreignRules (found.getD .empty) = [] ∧
        (defaultPool site cluster = none → foreignElse (found.getD .empty) = mxTarget) := by
  have nothing : foreignSent .empty = [] := by
    simp [foreignSent, foreignRules, expressionRules, Expression.empty]
  have plain : Plain (fallback site .empty (defaultPool site cluster)) := by
    cases defaultPool site cluster with
    | none => exact mxTarget_plain
    | some pool => exact routeName_plain pool
  rw [pushRoute_eq active credentials, resolve_routeExpression]
  simp only [if_true, nothing, List.mapM_nil, Option.pure_def, Option.bind_some, plain.resolve,
    Option.map_some, Option.some.injEq, forall_eq']
  rw [keeps_iff (Nat.zero_le _), eq_comm, foreignSent, List.map_eq_nil_iff]
  refine and_congr_right fun _ => forall_congr' fun none => ?_
  rw [none, ← otherwise_iff_mx]
  rfl

theorem keeps_after_read (active : cluster.active = true) (credentials : cluster.hasCredentials = true)
    (found : Option Expression) (ids : Ids) :
    (∀ written, pushRoute site cluster found false (some ids) = some written →
        Keeps site cluster (found.getD .empty) written) ↔
      (∃ text ∈ foreignTexts site cluster (found.getD .empty), resolveText ids text = none) ∨
        ∀ text ∈ foreignTexts site cluster (found.getD .empty), resolveText ids text = some text := by
  rw [pushRoute_eq active credentials, resolve_routeExpression]
  simp only [Bool.false_eq_true, if_false, foreignTexts]
  generalize found.getD .empty = held
  cases resolved : (foreignSent held).mapM (SentRule.resolve ids) with
  | none =>
    obtain ⟨rule, there, raises⟩ := mapM_eq_none.mp resolved
    obtain ⟨text, among, label⟩ := resolve_eq_none.mp raises
    have listed := List.mem_flatMap.mpr ⟨rule, there, among⟩
    exact iff_of_true nofun (Or.inl ⟨text, List.mem_append_left _ listed, label⟩)
  | some kept =>
    have length := mapM_length resolved
    have rules : kept = foreignSent held ↔
        ∀ text ∈ (foreignSent held).flatMap SentRule.texts, resolveText ids text = some text := by
      rw [← Option.some.injEq, ← resolved, mapM_eq_self_iff]
      simp only [resolve_eq_self, List.mem_flatMap, forall_exists_index, and_imp]
      exact ⟨fun each text rule there among => each rule there text among,
        fun each rule there text among => each text rule there among⟩
    have settled : ¬ ∃ text ∈ (foreignSent held).flatMap SentRule.texts, resolveText ids text = none := by
      rintro ⟨text, among, label⟩
      obtain ⟨rule, there, own⟩ := List.mem_flatMap.mp among
      have raises := mapM_eq_none.mpr ⟨rule, there, resolve_eq_none.mpr ⟨text, own, label⟩⟩
      rw [resolved] at raises
      cases raises
    simp only [List.mem_append, or_and_right, exists_or, or_iff_right settled, or_imp, forall_and]
    cases default : defaultPool site cluster with
    | some pool =>
      simp only [fallback_default, (routeName_plain pool).resolve, Option.bind_some, Option.map_some,
        Option.some.injEq, forall_eq']
      rw [keeps_iff (Nat.le_of_eq length), rules, default]
      simp
    | none =>
      simp only [fallback_none, if_true, List.mem_singleton, exists_eq_left, forall_eq]
      cases last : resolveText ids (foreignElse held) with
      | none => simp
      | some text =>
        simp only [Option.bind_some, Option.map_some, Option.some.injEq, forall_eq', reduceCtorEq, false_or]
        rw [keeps_iff (Nat.le_of_eq length), rules, default]
        simp only [forall_const]
        rw [otherwise_iff last, last, Option.some.injEq]

theorem pushRoute_live (wrote : pushRoute site cluster found fails earlier = some written) :
    cluster.active = true ∧ cluster.hasCredentials = true ∧ ∃ ids, earlier = some ids := by
  rw [pushRoute] at wrote
  split at wrote
  · cases wrote
  · rename_i live
    rw [not_or, not_not, not_not] at live
    obtain ⟨ids, same, -⟩ := Option.bind_eq_some_iff.mp wrote
    exact ⟨live.1, live.2, ids, same⟩

theorem keeps_iff_spared (active : cluster.active = true) (credentials : cluster.hasCredentials = true)
    (found : Option Expression) (fails : Bool) (ids : Ids) :
    (∀ written, pushRoute site cluster found fails (some ids) = some written →
        Keeps site cluster (found.getD .empty) written) ↔
      Spared site cluster (found.getD .empty) fails (some ids) := by
  simp only [Spared, credentials, true_implies, Option.mem_some_iff, forall_eq']
  cases fails with
  | true => exact keeps_after_failure active credentials found ids
  | false => exact keeps_after_read active credentials found ids

/-- **A push keeps what is not its own exactly where it is spared**: whatever the strategy holds and
whatever becomes of reading it, the expression that a push of an active cluster writes has the foreign
rules in their order, and a foreign `else` where no default pool replaces it. -/
theorem route_push_keeps_iff (active : cluster.active = true) (found : Option Expression) (fails : Bool)
    (earlier : Option Ids) :
    (∀ written, pushRoute site cluster found fails earlier = some written →
        Keeps site cluster (found.getD .empty) written) ↔
      Spared site cluster (found.getD .empty) fails earlier := by
  by_cases credentials : cluster.hasCredentials = true
  · cases earlier with
    | none =>
      refine iff_of_true (fun written wrote => ?_) fun _ ids member => nomatch member
      obtain ⟨-, -, ids, none⟩ := pushRoute_live wrote
      cases none
    | some ids => exact keeps_iff_spared active credentials found fails ids
  · refine iff_of_true (fun written wrote => ?_) fun given => absurd given credentials
    exact absurd (pushRoute_live wrote).2.1 credentials

end Push

/-! ### Push after push -/

/-- A push: the documents it reads and what becomes of its calls. -/
structure PushAttempt where
  site : Site
  cluster : StalwartCluster
  fails : Bool
  earlier : Option Ids

/-- The route the cluster holds after a push. -/
def pushStep (found : Option Expression) (push : PushAttempt) : Option (Option Expression) :=
  some ((pushRoute push.site push.cluster found push.fails push.earlier).or found)

theorem foreignSent_eq_filter (expression : Expression) :
    foreignSent expression = (sentRules expression).filter fun rule => rule.held.isForeign := by
  rw [sentRules, List.filter_map]
  rfl

/-- **Over a run of pushes that are spared, the foreign rules last**, in their order. -/
theorem foreign_rules_last {start found : Option Expression}
    (reached : Reaches pushStep (fun found push =>
      Spared push.site push.cluster (found.getD .empty) push.fails push.earlier) start found) :
    (foreignSent (start.getD .empty)).Sublist (foreignSent (found.getD .empty)) := by
  refine reached.invariant (fun found => (foreignSent (start.getD .empty)).Sublist
    (foreignSent (found.getD .empty))) (.refl _) ?_
  intro here there push lasted spared taken
  obtain rfl := Option.some.inj taken
  cases wrote : pushRoute push.site push.cluster here push.fails push.earlier with
  | none => exact lasted
  | some written =>
    obtain ⟨active, credentials, ids, ready⟩ := pushRoute_live wrote
    rw [ready] at spared wrote
    have keeps := (keeps_iff_spared active credentials here push.fails ids).mpr spared written wrote
    refine lasted.trans ?_
    have foreign := keeps.rules.filter fun rule => rule.held.isForeign
    rw [← foreignSent_eq_filter, foreignSent_eq_filter, List.filter_filter] at foreign
    simp only [Bool.and_self] at foreign
    rw [foreignSent_eq_filter]
    exact foreign

/-! ### A rule of an operator -/

/-- A site without pools and domains. -/
def bareSite : Site := ⟨[], [], [], List.nodup_nil, List.nodup_nil, List.nodup_nil, List.nodup_nil⟩

def activeCluster : StalwartCluster := ⟨"mail.bom.frappemail.com", true, true, none, none, "secret"⟩

/-- A route with a rule that an operator wrote. -/
def partnerRoute : Expression where
  rules := .listed [⟨.held "rcpt_domain == 'partner.com'", some "'partner'"⟩]
  otherwise := some "'custom'"

theorem route_push_keeps_iff_partner : ∃ written,
    pushRoute bareSite activeCluster (some partnerRoute) false (some fun _ => none) = some written ∧
      Keeps bareSite activeCluster partnerRoute written := by
  have kept : (foreignSent partnerRoute).mapM (SentRule.resolve fun _ => none) =
      some (foreignSent partnerRoute) := mapM_eq_self (by decide)
  have last : resolveText (fun _ => none) (fallback bareSite partnerRoute
      (defaultPool bareSite activeCluster)) = some "'custom'" := by decide
  obtain ⟨written, wrote⟩ : ∃ written, pushRoute bareSite activeCluster (some partnerRoute) false
      (some fun _ => none) = some written := by
    rw [pushRoute_eq rfl rfl, resolve_routeExpression]
    simp only [Bool.false_eq_true, if_false, Option.getD_some, kept, last, Option.bind_some, Option.map_some]
    exact ⟨_, rfl⟩
  refine ⟨written, wrote, ?_⟩
  refine (route_push_keeps_iff rfl (some partnerRoute) false (some fun _ => none)).mpr ?_ written wrote
  intro _ ids same
  obtain rfl := Option.some.inj same
  exact Or.inr (by decide)

/-- **A read that fails costs the operator's rule.** -/
theorem dropped_by_failed_read :
    ¬ ∀ (site : Site) (cluster : StalwartCluster), cluster.active = true →
      ∀ (found : Option Expression) (fails : Bool) (earlier : Option Ids) (written : Expression),
        pushRoute site cluster found fails earlier = some written →
          Keeps site cluster (found.getD .empty) written := by
  intro always
  have kept := (keeps_after_failure rfl rfl (some partnerRoute) fun _ => none).mp
    (always bareSite activeCluster rfl (some partnerRoute) true (some fun _ => none))
  exact absurd kept.1 (by decide)

end SuiteCloud.Mail.Cluster.Routes
