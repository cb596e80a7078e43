/-
**The cluster's maximum and the limits under it.**

`validate_send_limits` of Stalwart Cluster, Suite Tenant and Mail Account. An account's limits and a
tenant's defaults are checked against the cluster's maximum when they are saved; a cluster's maximum is
checked to be at least 1, and nothing more.

* `step` — the saves that succeed, and the deletes between them.
* `Capped` — every limit and every default is within its cluster's maximum.
* `max_caps_every_account` — **the maximum caps every account** in a run in which no save of a cluster
  takes a maximum below what is on it.
* `max_lowered_below_limit` — one save of a cluster.

The checks that have nothing to do with the limits only refuse more saves, and are left out.
-/

import SuiteCloud.Library.Keyed
import SuiteCloud.Library.Transition
import SuiteCloud.Mail.SendingLimits.Enforcement

namespace SuiteCloud.Mail.SendingLimits.Caps

open SuiteCloud.Library

/-! ## Rows -/

/-- A Stalwart Cluster. -/
structure Cluster where
  name : String
  maxDailySendLimit : ℤ
  maxMonthlySendLimit : ℤ
  deriving DecidableEq

/-- A Suite Tenant. -/
structure Tenant where
  name : String
  stalwartCluster : Option String
  defaultDailySendLimit : ℤ
  defaultMonthlySendLimit : ℤ
  deriving DecidableEq

/-- A Mail Domain. -/
structure Domain where
  name : String
  tenant : String
  cluster : String
  deriving DecidableEq

/-- A Mail Account; its address gives the domain. -/
structure Account where
  name : String
  domain : String
  tenant : String
  cluster : String
  dailySendLimit : ℤ
  monthlySendLimit : ℤ
  deriving DecidableEq

structure State where
  clusters : Keyed String Cluster Cluster.name
  tenants : Keyed String Tenant Tenant.name
  domains : Keyed String Domain Domain.name
  accounts : Keyed String Account Account.name

def State.initial : State := ⟨∅, ∅, ∅, ∅⟩

/-! ## The checks -/

/-- `StalwartCluster.validate_send_limits`. -/
def Cluster.validateSendLimits (cluster : Cluster) : Bool :=
  decide (1 ≤ cluster.maxDailySendLimit) && decide (1 ≤ cluster.maxMonthlySendLimit)

/-- Between 1 and the cluster's maximum. -/
def isWithin (cluster : Cluster) (daily monthly : ℤ) : Bool :=
  decide (1 ≤ daily) && decide (daily ≤ cluster.maxDailySendLimit) &&
    (decide (1 ≤ monthly) && decide (monthly ≤ cluster.maxMonthlySendLimit))

/-- `SuiteTenant.validate_send_limits`; a maximum of 0 would not count. -/
def Tenant.validateSendLimits (tenant : Tenant) (cluster : Option Cluster) : Bool :=
  let within (value : ℤ) (maximum : Cluster → ℤ) :=
    decide (1 ≤ value) && cluster.all fun row => maximum row = 0 || decide (value ≤ maximum row)
  within tenant.defaultDailySendLimit Cluster.maxDailySendLimit &&
    within tenant.defaultMonthlySendLimit Cluster.maxMonthlySendLimit

/-- `MailAccount.validate_send_limits`. -/
def Account.validateSendLimits (account : Account) (cluster : Cluster) : Bool :=
  isWithin cluster account.dailySendLimit account.monthlySendLimit

/-- `has_mail_data`, of what is modelled. -/
def State.hasMailData (s : State) (tenant : String) : Bool :=
  s.domains.rows.any (·.tenant = tenant) || s.accounts.rows.any (·.tenant = tenant)

/-- `cint(value) or default`. -/
def orDefault (value default : ℤ) : ℤ := if value = 0 then default else value

/-! ## Saves -/

inductive Action
  | saveCluster (cluster : Cluster)
  | saveTenant (tenant : Tenant)
  | saveDomain (name tenant : String)
  /-- A new account, with the limits the caller gave. -/
  | insertAccount (name domain : String) (daily monthly : ℤ)
  /-- An account saved, with new limits or with its own. -/
  | saveAccount (name : String) (daily monthly : ℤ)
  | deleteDomain (name : String)
  | deleteAccount (name : String)

/-- **One save or delete**; `none` is a raise. -/
def step (s : State) : Action → Option State
  | .saveCluster cluster =>
      if cluster.validateSendLimits then some { s with clusters := s.clusters.save cluster } else none
  | .saveTenant tenant =>
      if (s.tenants.get tenant.name).any (fun before =>
          before.stalwartCluster ≠ tenant.stalwartCluster && s.hasMailData tenant.name) then none
      else
        match tenant.stalwartCluster with
        | none =>
            if tenant.validateSendLimits none then some { s with tenants := s.tenants.save tenant } else none
        | some name =>
            (s.clusters.get name).bind fun cluster =>
              if tenant.validateSendLimits (some cluster) then
                some { s with tenants := s.tenants.save tenant }
              else none
  | .saveDomain name tenant =>
      -- The tenant of a domain is set once.
      if (s.domains.get name).any (·.tenant ≠ tenant) then none
      else
        ((s.tenants.get tenant).bind Tenant.stalwartCluster).map fun cluster =>
          { s with domains := s.domains.save ⟨name, tenant, cluster⟩ }
  | .insertAccount name domain daily monthly =>
      (s.domains.get domain).bind fun row =>
        (s.tenants.get row.tenant).bind fun tenant =>
          (s.clusters.get row.cluster).bind fun cluster =>
            let account : Account := ⟨name, domain, row.tenant, row.cluster,
              orDefault daily tenant.defaultDailySendLimit,
              orDefault monthly tenant.defaultMonthlySendLimit⟩
            if account.validateSendLimits cluster then
              (s.accounts.insert account).map fun accounts => { s with accounts := accounts }
            else none
  | .saveAccount name daily monthly =>
      (s.accounts.get name).bind fun before =>
        (s.domains.get before.domain).bind fun row =>
          (s.clusters.get row.cluster).bind fun cluster =>
            let account : Account := ⟨name, before.domain, row.tenant, row.cluster, daily, monthly⟩
            if account.validateSendLimits cluster then
              some { s with accounts := s.accounts.save account }
            else none
  | .deleteDomain name =>
      if s.accounts.rows.any (·.domain = name) then none
      else some { s with domains := s.domains.erase name }
  | .deleteAccount name => some { s with accounts := s.accounts.erase name }

/-! ## Within the maximum -/

/-- **Every limit is within its cluster's maximum**, every default too, and no maximum is off. -/
structure Capped (s : State) : Prop where
  clusters : ∀ cluster ∈ s.clusters, cluster.validateSendLimits
  accounts : ∀ account ∈ s.accounts, ∃ cluster, s.clusters.get account.cluster = some cluster ∧
    isWithin cluster account.dailySendLimit account.monthlySendLimit
  tenants : ∀ tenant ∈ s.tenants, 1 ≤ tenant.defaultDailySendLimit ∧ 1 ≤ tenant.defaultMonthlySendLimit ∧
    ∀ name, tenant.stalwartCluster = some name → ∃ cluster, s.clusters.get name = some cluster ∧
      isWithin cluster tenant.defaultDailySendLimit tenant.defaultMonthlySendLimit

/-- **The condition**: a cluster is saved with maxima that no account and no default of a tenant on it
is above. -/
def keepsUnderMax (s : State) : Action → Prop
  | .saveCluster cluster =>
      (∀ account ∈ s.accounts.rows, account.cluster = cluster.name →
        account.dailySendLimit ≤ cluster.maxDailySendLimit ∧
          account.monthlySendLimit ≤ cluster.maxMonthlySendLimit) ∧
      ∀ tenant ∈ s.tenants.rows, tenant.stalwartCluster = some cluster.name →
        tenant.defaultDailySendLimit ≤ cluster.maxDailySendLimit ∧
          tenant.defaultMonthlySendLimit ≤ cluster.maxMonthlySendLimit
  | _ => True

instance (s : State) (action : Action) : Decidable (keepsUnderMax s action) :=
  match action with
  | .saveCluster cluster => inferInstanceAs (Decidable (
      (∀ account ∈ s.accounts.rows, account.cluster = cluster.name →
        account.dailySendLimit ≤ cluster.maxDailySendLimit ∧
          account.monthlySendLimit ≤ cluster.maxMonthlySendLimit) ∧
      ∀ tenant ∈ s.tenants.rows, tenant.stalwartCluster = some cluster.name →
        tenant.defaultDailySendLimit ≤ cluster.maxDailySendLimit ∧
          tenant.defaultMonthlySendLimit ≤ cluster.maxMonthlySendLimit))
  | .saveTenant _ | .saveDomain _ _ | .insertAccount _ _ _ _ | .saveAccount _ _ _ | .deleteDomain _
  | .deleteAccount _ => inferInstanceAs (Decidable True)

/-! ## What a save can do -/

/-- **What each save writes**, once it is checked. -/
inductive Steps (s : State) : Action → State → Prop
  | saveCluster (cluster : Cluster) : cluster.validateSendLimits →
      Steps s (.saveCluster cluster) { s with clusters := s.clusters.save cluster }
  | saveTenant (tenant : Tenant) (cluster : Option Cluster) :
      tenant.validateSendLimits cluster → tenant.stalwartCluster.bind s.clusters.get = cluster →
      (tenant.stalwartCluster.isSome → cluster.isSome) →
      Steps s (.saveTenant tenant) { s with tenants := s.tenants.save tenant }
  | saveDomain (name tenant : String) (domain : Domain) :
      Steps s (.saveDomain name tenant) { s with domains := s.domains.save domain }
  | insertAccount (name domain : String) (daily monthly : ℤ) (account : Account) (cluster : Cluster)
      (accounts : Keyed String Account Account.name) : s.clusters.get account.cluster = some cluster →
      account.validateSendLimits cluster → s.accounts.insert account = some accounts →
      Steps s (.insertAccount name domain daily monthly) { s with accounts := accounts }
  | saveAccount (name : String) (daily monthly : ℤ) (account : Account) (cluster : Cluster) :
      s.clusters.get account.cluster = some cluster → account.validateSendLimits cluster →
      Steps s (.saveAccount name daily monthly) { s with accounts := s.accounts.save account }
  | deleteDomain (name : String) :
      Steps s (.deleteDomain name) { s with domains := s.domains.erase name }
  | deleteAccount (name : String) :
      Steps s (.deleteAccount name) { s with accounts := s.accounts.erase name }

theorem steps_of_step {s s' : State} {action : Action} (taken : step s action = some s') :
    Steps s action s' := by
  cases action with
  | saveCluster cluster =>
    simp only [step] at taken
    split at taken
    case isTrue valid =>
      obtain rfl := Option.some.inj taken
      exact .saveCluster cluster valid
    case isFalse => cases taken
  | saveTenant tenant =>
    simp only [step] at taken
    split at taken
    case isTrue => cases taken
    case isFalse =>
      split at taken
      case h_1 without =>
        split at taken
        case isTrue valid =>
          obtain rfl := Option.some.inj taken
          refine .saveTenant tenant none valid ?_ ?_
          · rw [without]
            rfl
          · rw [without]
            exact id
        case isFalse => cases taken
      case h_2 name on =>
        obtain ⟨cluster, found, taken⟩ := Option.bind_eq_some_iff.mp taken
        split at taken
        case isTrue valid =>
          obtain rfl := Option.some.inj taken
          refine .saveTenant tenant (some cluster) valid ?_ fun _ => rfl
          rw [on]
          exact found
        case isFalse => cases taken
  | saveDomain name tenant =>
    simp only [step] at taken
    split at taken
    case isTrue => cases taken
    case isFalse =>
      obtain ⟨cluster, -, rfl⟩ := Option.map_eq_some_iff.mp taken
      exact .saveDomain name tenant _
  | insertAccount name domain daily monthly =>
    obtain ⟨row, -, taken⟩ := Option.bind_eq_some_iff.mp taken
    obtain ⟨tenant, -, taken⟩ := Option.bind_eq_some_iff.mp taken
    obtain ⟨cluster, found, taken⟩ := Option.bind_eq_some_iff.mp taken
    simp only at taken
    split at taken
    case isTrue valid =>
      obtain ⟨accounts, inserted, rfl⟩ := Option.map_eq_some_iff.mp taken
      exact .insertAccount name domain daily monthly _ cluster accounts found valid inserted
    case isFalse => cases taken
  | saveAccount name daily monthly =>
    obtain ⟨before, -, taken⟩ := Option.bind_eq_some_iff.mp taken
    obtain ⟨row, -, taken⟩ := Option.bind_eq_some_iff.mp taken
    obtain ⟨cluster, found, taken⟩ := Option.bind_eq_some_iff.mp taken
    simp only at taken
    split at taken
    case isTrue valid =>
      obtain rfl := Option.some.inj taken
      exact .saveAccount name daily monthly _ cluster found valid
    case isFalse => cases taken
  | deleteDomain name =>
    simp only [step] at taken
    split at taken
    case isTrue => cases taken
    case isFalse =>
      obtain rfl := Option.some.inj taken
      exact .deleteDomain name
  | deleteAccount name =>
    obtain rfl := Option.some.inj taken
    exact .deleteAccount name

/-! ## The invariant -/

theorem isWithin_iff {cluster : Cluster} {daily monthly : ℤ} : isWithin cluster daily monthly = true ↔
    (1 ≤ daily ∧ daily ≤ cluster.maxDailySendLimit) ∧
      1 ≤ monthly ∧ monthly ≤ cluster.maxMonthlySendLimit := by
  simp only [isWithin, Bool.and_eq_true, decide_eq_true_eq]

theorem validateSendLimits_iff {cluster : Cluster} : cluster.validateSendLimits = true ↔
    1 ≤ cluster.maxDailySendLimit ∧ 1 ≤ cluster.maxMonthlySendLimit := by
  simp only [Cluster.validateSendLimits, Bool.and_eq_true, decide_eq_true_eq]

theorem Tenant.within_of_validate {tenant : Tenant} {cluster : Option Cluster}
    (valid : tenant.validateSendLimits cluster) :
    1 ≤ tenant.defaultDailySendLimit ∧ 1 ≤ tenant.defaultMonthlySendLimit ∧
      ∀ row, cluster = some row → row.validateSendLimits →
        isWithin row tenant.defaultDailySendLimit tenant.defaultMonthlySendLimit := by
  simp only [Tenant.validateSendLimits, Bool.and_eq_true, decide_eq_true_eq] at valid
  obtain ⟨⟨daily, underDaily⟩, monthly, underMonthly⟩ := valid
  refine ⟨daily, monthly, ?_⟩
  rintro row rfl on
  obtain ⟨onDaily, onMonthly⟩ := validateSendLimits_iff.mp on
  simp only [Option.all_some, Bool.or_eq_true, decide_eq_true_eq] at underDaily underMonthly
  exact isWithin_iff.mpr ⟨⟨daily, underDaily.resolve_left (by omega)⟩,
    monthly, underMonthly.resolve_left (by omega)⟩

variable {s s' : State}

theorem within_save {cluster : Cluster} {name : String} {daily monthly : ℤ}
    (within : ∃ row, s.clusters.get name = some row ∧ isWithin row daily monthly)
    (under : name = cluster.name →
      daily ≤ cluster.maxDailySendLimit ∧ monthly ≤ cluster.maxMonthlySendLimit) :
    ∃ row, (s.clusters.save cluster).get name = some row ∧ isWithin row daily monthly := by
  obtain ⟨row, found, within⟩ := within
  rw [Keyed.get_save]
  split
  · next same =>
    obtain ⟨⟨daily, -⟩, monthly, -⟩ := isWithin_iff.mp within
    obtain ⟨underDaily, underMonthly⟩ := under same
    exact ⟨cluster, rfl, isWithin_iff.mpr ⟨⟨daily, underDaily⟩, monthly, underMonthly⟩⟩
  · exact ⟨row, found, within⟩

theorem capped_step {action : Action} (here : Capped s) (keeps : keepsUnderMax s action)
    (steps : Steps s action s') : Capped s' := by
  cases steps with
  | saveCluster cluster valid =>
    refine ⟨?_, ?_, ?_⟩
    · intro other there
      rcases Keyed.mem_save.mp there with rfl | ⟨there, -⟩
      · exact valid
      · exact here.clusters other there
    · intro account there
      exact within_save (here.accounts account there) (keeps.1 account there)
    · intro tenant there
      obtain ⟨daily, monthly, on⟩ := here.tenants tenant there
      refine ⟨daily, monthly, ?_⟩
      rintro name named
      refine within_save (on name named) ?_
      rintro rfl
      exact keeps.2 tenant there named
  | saveTenant tenant cluster valid found on =>
    refine ⟨here.clusters, here.accounts, ?_⟩
    intro other there
    rcases Keyed.mem_save.mp there with rfl | ⟨there, -⟩
    · obtain ⟨daily, monthly, under⟩ := Tenant.within_of_validate valid
      refine ⟨daily, monthly, ?_⟩
      intro name named
      obtain ⟨row, same⟩ := Option.isSome_iff_exists.mp (on (by rw [named]; rfl))
      rw [named, same] at found
      have member := (Keyed.get_eq_some.mp found).1
      exact ⟨row, found, under row same (here.clusters row member)⟩
    · exact here.tenants other there
  | saveDomain name tenant domain => exact ⟨here.clusters, here.accounts, here.tenants⟩
  | insertAccount name domain daily monthly account cluster accounts found valid inserted =>
    refine ⟨here.clusters, ?_, here.tenants⟩
    intro other there
    rcases ((Keyed.mem_insert inserted).2 other).mp there with rfl | there
    · exact ⟨cluster, found, valid⟩
    · exact here.accounts other there
  | saveAccount name daily monthly account cluster found valid =>
    refine ⟨here.clusters, ?_, here.tenants⟩
    intro other there
    rcases Keyed.mem_save.mp there with rfl | ⟨there, -⟩
    · exact ⟨cluster, found, valid⟩
    · exact here.accounts other there
  | deleteDomain name => exact ⟨here.clusters, here.accounts, here.tenants⟩
  | deleteAccount name =>
    refine ⟨here.clusters, ?_, here.tenants⟩
    intro other there
    exact here.accounts other (Keyed.mem_erase.mp there).1

/-! ## The maximum caps every account -/

/-- What `count_recipient` reads of an account. -/
def Account.limits (account : Account) : Limits String :=
  ⟨some account.cluster, account.dailySendLimit.toNat, account.monthlySendLimit.toNat⟩

/-- **The cluster's maximum caps every account** in a run in which no cluster is saved with a maximum
below a limit or a default on it; so no account is accepted for more recipients in a day than that. -/
theorem max_caps_every_account (start : State) (capped : Capped start) (s : State)
    (reached : Reaches step keepsUnderMax start s) :
    Capped s ∧ ∀ account ∈ s.accounts, ∀ cluster, s.clusters.get account.cluster = some cluster →
      ∀ day month : Counter, verdictOf account.limits day month = .accepted →
        (day.sent : ℤ) + 1 ≤ cluster.maxDailySendLimit := by
  have capped : Capped s := by
    refine reached.invariant Capped capped ?_
    intro here there action capped keeps taken
    exact capped_step capped keeps (steps_of_step taken)
  refine ⟨capped, ?_⟩
  intro account member cluster found day month accepted
  obtain ⟨row, found', within⟩ := capped.accounts account member
  obtain rfl := Option.some.inj (found.symm.trans found')
  obtain ⟨⟨-, under⟩, -⟩ := isWithin_iff.mp within
  have room := (verdictOf_accepted.mp accepted).1
  simp only [Account.limits] at room
  omega

/-- A cluster, a tenant on it, its domain and an account that takes the tenant's defaults. -/
def setUp : List Action :=
  [.saveCluster ⟨"mail", 1000, 10000⟩, .saveTenant ⟨"acme", some "mail", 500, 5000⟩,
    .saveDomain "acme.com" "acme", .insertAccount "ann@acme.com" "acme.com" 0 0]

theorem initial_capped : Capped State.initial := by
  refine ⟨?_, ?_, ?_⟩
  · intro cluster there
    cases there
  · intro account there
    cases there
  · intro tenant there
    cases there

/-- The account's limits come down, then the tenant's defaults, then the cluster's maximum. -/
theorem max_caps_every_account_lowered :
    ∃ s, Reaches step keepsUnderMax State.initial s ∧
      s.accounts.rows.map (·.dailySendLimit) = [200] ∧
      s.clusters.rows.map (·.maxDailySendLimit) = [300] ∧ Capped s := by
  have meets : RunMeets step keepsUnderMax State.initial
      (setUp ++ [Action.saveAccount "ann@acme.com" 200 2000, .saveTenant ⟨"acme", some "mail", 300, 3000⟩,
        .saveCluster ⟨"mail", 300, 3000⟩]) := by decide
  have seen : (run step State.initial
      (setUp ++ [Action.saveAccount "ann@acme.com" 200 2000, .saveTenant ⟨"acme", some "mail", 300, 3000⟩,
        .saveCluster ⟨"mail", 300, 3000⟩])).map (fun s =>
          (s.accounts.rows.map (·.dailySendLimit), s.clusters.rows.map (·.maxDailySendLimit))) =
      some ([200], [300]) := by decide
  obtain ⟨s, ends, both⟩ := Option.map_eq_some_iff.mp seen
  injection both with limits maxima
  have reached := reaches_of_run meets ends
  exact ⟨s, reached, limits, maxima, (max_caps_every_account State.initial initial_capped s reached).1⟩

/-- **The maximum is lowered below a limit**: the save of the cluster succeeds, and the account and the
tenant stay as they are. -/
theorem max_lowered_below_limit :
    ¬ ∀ s, Reaches step anyStep State.initial s → Capped s := by
  intro capped
  have seen : (run step State.initial (setUp ++ [Action.saveCluster ⟨"mail", 100, 1000⟩])).map (fun s =>
      (s.accounts.rows, s.clusters.rows)) =
      some ([⟨"ann@acme.com", "acme.com", "acme", "mail", 500, 5000⟩], [⟨"mail", 100, 1000⟩]) := by
    decide
  obtain ⟨s, ends, both⟩ := Option.map_eq_some_iff.mp seen
  injection both with accounts clusters
  have here := capped s (reaches_of_run (runMeets_of_forall fun _ _ _ => trivial) ends)
  have member : (⟨"ann@acme.com", "acme.com", "acme", "mail", 500, 5000⟩ : Account) ∈ s.accounts := by
    show _ ∈ s.accounts.rows
    rw [accounts]
    exact List.mem_cons_self
  obtain ⟨cluster, found, within⟩ := here.accounts _ member
  have there : cluster ∈ s.clusters.rows := (Keyed.get_eq_some.mp found).1
  rw [clusters] at there
  rw [List.mem_singleton.mp there] at within
  exact absurd within (by decide)

end SuiteCloud.Mail.SendingLimits.Caps
