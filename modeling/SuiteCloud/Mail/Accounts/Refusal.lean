/-
**A refused account save.**

A save sends its calls one by one inside the transaction. Where one is refused the database rolls back,
the hooks revoke the credentials the save created, and everything else the cluster has accepted by then
stays.

### What is proved

* `held_rollBack` — after the hooks the cluster holds what the calls but for the creations made of it.
* `account_calls_settled`, `kind_calls_settled`, `role_calls_settled` — when a part of a save may be
  followed by another.
* `refused_save_iff` — **a refused save changes nothing on the cluster exactly when** each part with a
  call after it asks for what the cluster has.
* `exemption_outlives_save` — an account stays exempt from the scan though its save was refused.
-/

import SuiteCloud.Mail.Accounts.Model

namespace SuiteCloud.Mail.Accounts

open SuiteCloud.Library

/-! ### What the cluster holds -/

/-- The account, its credentials and the scan-exempt keys. -/
@[ext] structure Held where
  account : Account
  credentials : Kind → ℕ → Option Credential
  exemptKeys : List String

def Cluster.held (cluster : Cluster) : Held :=
  ⟨cluster.account, cluster.credentials, cluster.exemptKeys⟩

/-- What an accepted call leaves once the hooks have run: nothing, for a new credential. -/
def keep (held : Held) : Call → Held
  | .createExemptKey email => { held with exemptKeys := held.exemptKeys ++ [email] }
  | .deleteExemptKey email => { held with exemptKeys := held.exemptKeys.erase email }
  | .updateAccount patch => { held with account := patch.apply held.account }
  | .updateCredential kind id credential =>
      { held with credentials := writeCredential held.credentials kind id credential }
  | .setRoles roles => { held with account := { held.account with roles := roles } }
  | .setPassword password => { held with account := { held.account with password := some password } }
  | .createCredential _ _ => held
  | .readExemptKeys => held
  | .reloadLookupStores => held
  | .readPermissions => held
  | .connect => held
  | .readRoles => held
  | .readCredentials => held

section RollBack

variable {first : ℕ} {cluster : Cluster}

theorem held_rollBack_next : (rollBack cluster.next cluster).held = cluster.held := by
  refine Held.ext rfl ?_ rfl
  funext kind id
  show (if cluster.next ≤ id then none else cluster.credentials kind id) = cluster.credentials kind id
  split
  · next later => exact (cluster.issued kind id later).symm
  · rfl

theorem le_next_accept (call : Call) : cluster.next ≤ (accept cluster call).next := by
  cases call with
  | createCredential kind credential => exact Nat.le_succ cluster.next
  | _ => exact le_rfl

theorem rollBack_writeCredential (kind : Kind) (id : ℕ) (credential : Credential) :
    (fun other otherId => if first ≤ otherId then none
      else writeCredential cluster.credentials kind id credential other otherId) =
      writeCredential (rollBack first cluster).credentials kind id credential := by
  funext other otherId
  simp only [writeCredential, rollBack]
  by_cases same : other = kind ∧ otherId = id
  · obtain ⟨rfl, rfl⟩ := same
    by_cases later : first ≤ otherId
    · simp [later]
    · simp [later]
  · simp only [if_neg same]

theorem rollBack_addCredential (issued : first ≤ cluster.next) (kind : Kind) (credential : Credential) :
    (fun other otherId => if first ≤ otherId then none
      else addCredential cluster.credentials kind cluster.next credential other otherId) =
      (rollBack first cluster).credentials := by
  funext other otherId
  simp only [addCredential, rollBack]
  by_cases later : first ≤ otherId
  · rw [if_pos later, if_pos later]
  · rw [if_neg later, if_neg later, if_neg]
    rintro ⟨-, rfl⟩
    exact later issued

theorem held_rollBack_accept (issued : first ≤ cluster.next) (call : Call) :
    (rollBack first (accept cluster call)).held = keep (rollBack first cluster).held call := by
  cases call with
  | createCredential kind credential =>
    exact Held.ext rfl (rollBack_addCredential issued kind credential) rfl
  | updateCredential kind id credential =>
    exact Held.ext rfl (rollBack_writeCredential kind id credential) rfl
  | _ => rfl

theorem held_rollBack_foldl (issued : first ≤ cluster.next) (calls : List Call) :
    (rollBack first (calls.foldl accept cluster)).held = calls.foldl keep (rollBack first cluster).held := by
  induction calls generalizing cluster with
  | nil => rfl
  | cons call rest ih =>
    rw [List.foldl_cons, List.foldl_cons, ← held_rollBack_accept issued call]
    exact ih (issued.trans (le_next_accept call))

/-- **After the hooks** the cluster holds what the calls but for the creations made of it. -/
theorem held_rollBack (calls : List Call) :
    (rollBack cluster.next (calls.foldl accept cluster)).held = calls.foldl keep cluster.held := by
  rw [held_rollBack_foldl le_rfl, held_rollBack_next]

end RollBack

/-! ### The save -/

/-- The cluster after the save was refused at a call, and its hooks have run. -/
def afterRefusal (ids : Ids) (cluster : Cluster) (before : MailAccount) (edit : Edit) (refused : ℕ) :
    Cluster :=
  rollBack cluster.next (((onUpdate ids cluster before edit).sent.take refused).foldl accept cluster)

/-- Whichever call is refused, the cluster holds what it held before the save. -/
def RefusalHarmless (ids : Ids) (cluster : Cluster) (before : MailAccount) (edit : Edit) : Prop :=
  ∀ refused < (onUpdate ids cluster before edit).sent.length,
    (afterRefusal ids cluster before edit refused).held = cluster.held

theorem refusalHarmless_iff {ids : Ids} {cluster : Cluster} {before : MailAccount} {edit : Edit} :
    RefusalHarmless ids cluster before edit ↔
      Settled keep cluster.held (onUpdate ids cluster before edit).sent := by
  rw [settled_iff]
  simp only [RefusalHarmless, afterRefusal, held_rollBack]

/-! ### Asking for what the cluster has -/

section Conditions

variable (ids : Ids) (cluster : Cluster) (before : MailAccount) (edit : Edit)

/-- The exemption is as it was, or the key is there or not as the save wants it. -/
def ExemptionHeld : Prop :=
  before.skipOutboundScan = edit.after.skipOutboundScan ∨
    (edit.after.skipOutboundScan = true ↔ edit.after.email ∈ cluster.exemptKeys)

/-- The domains of the aliases and the groups are on the mail server, where these changed. -/
def Resolves : Prop :=
  (aliasesChanged before edit.after = true → (aliasesPayload ids edit.after).isSome = true) ∧
    (¬ before.groups.Perm edit.after.groups → (groupIdsPayload ids edit.after).isSome = true)

/-- The cluster's account has the new value of every field that changed. -/
structure ProfileHeld : Prop where
  description : before.displayName ≠ edit.after.displayName →
    edit.after.displayName.filter (· ≠ "") = cluster.account.description
  locale : before.locale ≠ edit.after.locale → some edit.after.locale = cluster.account.locale
  timeZone : before.timeZone ≠ edit.after.timeZone → edit.after.timeZone = cluster.account.timeZone
  quotas : quotaMap before ≠ quotaMap edit.after → quotaMap edit.after = cluster.account.quotas
  aliases : aliasesChanged before edit.after = true →
    aliasesPayload ids edit.after = some cluster.account.aliases
  groups : ¬ before.groups.Perm edit.after.groups →
    groupIdsPayload ids edit.after = some cluster.account.memberGroupIds
  permissions : before.disableReceiving ≠ edit.after.disableReceiving →
    withPermissionDisabled cluster.account.permissions receivePermission edit.after.disableReceiving =
      cluster.account.permissions

/-- No credential of the kind is added, changed or taken out. -/
def Untouched (kind : Kind) : Prop :=
  added edit kind = [] ∧ changed before edit kind = [] ∧ gone before edit kind = []

/-- The cluster has the credential as the row has it, or not at all. -/
def CredentialHeld (kind : Kind) (entry : ℕ × CredentialRow) : Prop :=
  ∀ credential ∈ cluster.credentials kind entry.1, credential = entry.2.credential

def CredentialsHeld (kind : Kind) : Prop :=
  ∀ entry ∈ changed before edit kind, CredentialHeld cluster kind entry

/-- The same, but for the last of the changed ones. -/
def OthersHeld (kind : Kind) : Prop :=
  ∀ entry ∈ (changed before edit kind).dropLast, CredentialHeld cluster kind entry

/-- The account has the roles the save asks for, where `enabled` changed and the cluster has the role. -/
def RolesHeld : Prop :=
  before.enabled ≠ edit.after.enabled →
    if edit.after.enabled then cluster.account.roles = .user
    else ∀ role ∈ disabledRole cluster, cluster.account.roles = .custom {role}

/-- A password is given, and long enough. -/
def PasswordGiven : Prop := ∃ password ∈ edit.password, minPasswordLength ≤ password.length

/-- Neither `enabled` nor a password follows the credentials. -/
def EndsWithCredentials : Prop := before.enabled = edit.after.enabled ∧ ¬ PasswordGiven edit

/-- **Each part of the save with a call after it asks for what the cluster has.** -/
structure PartsHeld : Prop where
  profile : ProfileHeld ids cluster before edit ∨
    (Untouched before edit .appPassword ∧ Untouched before edit .apiKey ∧
      EndsWithCredentials before edit)
  appPasswords : CredentialsHeld cluster before edit .appPassword ∨
    (OthersHeld cluster before edit .appPassword ∧ Untouched before edit .apiKey ∧
      EndsWithCredentials before edit)
  apiKeys : CredentialsHeld cluster before edit .apiKey ∨
    (OthersHeld cluster before edit .apiKey ∧ EndsWithCredentials before edit)
  roles : RolesHeld cluster before edit ∨ ¬ PasswordGiven edit

end Conditions

/-! ### The parts -/

section Parts

variable {ids : Ids} {cluster : Cluster} {before : MailAccount} {edit : Edit} {rest : List Call}

theorem exemption_calls_settled :
    Settled keep cluster.held (exemptionCalls cluster before edit.after ++ rest) ↔
      ExemptionHeld cluster before edit ∧ Settled keep cluster.held rest := by
  unfold exemptionCalls
  split
  · next same => simp only [List.nil_append, ExemptionHeld, same, true_or, true_and]
  · next changed =>
    rw [setExempt, List.cons_append, settled_cons_of_quiet rfl]
    split
    · next missing =>
      have loud : keep cluster.held (.createExemptKey edit.after.email) ≠ cluster.held := by
        intro same
        have keys := congrArg (fun held => held.exemptKeys.length) same
        simp [keep] at keys
      refine iff_of_false (fun settled => ?_) fun held => ?_
      · exact (settled_cons.mp settled).1.elim (List.cons_ne_nil _ _) loud
      · exact held.1.elim changed fun wanted => missing.2 (wanted.mp missing.1)
    · next held =>
      split
      · next present =>
        have loud : keep cluster.held (.deleteExemptKey edit.after.email) ≠ cluster.held := by
          intro same
          have keys : (cluster.exemptKeys.erase edit.after.email).length = cluster.exemptKeys.length :=
            congrArg (fun held => held.exemptKeys.length) same
          have := List.length_erase_add_one present.2
          omega
        refine iff_of_false (fun settled => ?_) fun held => ?_
        · exact (settled_cons.mp settled).1.elim (List.cons_ne_nil _ _) loud
        · exact held.1.elim changed fun wanted => present.1 (wanted.mpr present.2)
      · next absent =>
        have wanted : edit.after.skipOutboundScan = true ↔ edit.after.email ∈ cluster.exemptKeys := by
          by_cases exempt : edit.after.skipOutboundScan = true
          · exact iff_of_true exempt (by_contra fun out => held ⟨exempt, out⟩)
          · exact iff_of_false exempt fun inside => absent ⟨exempt, inside⟩
        exact (and_iff_right (Or.inr wanted)).symm

theorem ifChanged_getD {α : Type} {changed : Bool} {value : Option α} {field : Option α}
    (sent : ifChanged changed value = some field) (held : α) :
    field.getD held = held ↔ (changed = true → value = some held) := by
  cases changed with
  | false =>
    obtain rfl : none = field := Option.some.inj sent
    simp
  | true =>
    obtain ⟨new, rfl, rfl⟩ := Option.map_eq_some_iff.mp sent
    simp

theorem isSome_ifChanged {α : Type} (changed : Bool) (value : Option α) :
    (∃ field, ifChanged changed value = some field) ↔ (changed = true → value.isSome = true) := by
  cases changed with
  | false => exact iff_of_true ⟨none, rfl⟩ nofun
  | true => simp [ifChanged, Option.isSome_iff_exists]

theorem resolves_iff :
    Resolves ids before edit ↔ ∃ profile, profilePatch ids before edit.after = some profile := by
  have groups := isSome_ifChanged (decide (¬ before.groups.Perm edit.after.groups))
    (groupIdsPayload ids edit.after)
  rw [decide_eq_true_iff] at groups
  rw [Resolves, ← isSome_ifChanged, ← groups]
  constructor
  · rintro ⟨⟨aliases, resolved⟩, ⟨groups, found⟩⟩
    rw [profilePatch, resolved, Option.bind_some, found]
    exact ⟨_, rfl⟩
  · rintro ⟨profile, resolved⟩
    obtain ⟨aliases, resolved, rest⟩ := Option.bind_eq_some_iff.mp resolved
    obtain ⟨groups, found, -⟩ := Option.map_eq_some_iff.mp rest
    exact ⟨⟨aliases, resolved⟩, ⟨groups, found⟩⟩

theorem apply_eq_self_iff (patch : Patch) (account : Account) :
    patch.apply account = account ↔
      patch.description.getD account.description = account.description ∧
      (patch.locale.map some).getD account.locale = account.locale ∧
      patch.timeZone.getD account.timeZone = account.timeZone ∧
      patch.quotas.getD account.quotas = account.quotas ∧
      patch.aliases.getD account.aliases = account.aliases ∧
      patch.memberGroupIds.getD account.memberGroupIds = account.memberGroupIds ∧
      patch.permissions.getD account.permissions = account.permissions := by
  cases account
  simp [Patch.apply]

theorem getD_ite {α : Type} {same : Prop} [Decidable same] {new held : α} :
    (if same then none else some new).getD held = held ↔ (¬ same → new = held) := by
  by_cases same : same <;> simp [same]

theorem withPermissions_eq (profile : Patch) :
    withPermissions cluster before edit.after profile = { profile with
      permissions := if before.disableReceiving = edit.after.disableReceiving then profile.permissions
        else some (withPermissionDisabled cluster.account.permissions receivePermission
          edit.after.disableReceiving) } := by
  unfold withPermissions
  split
  · rfl
  · rfl

theorem apply_withPermissions_iff {profile : Patch}
    (resolved : profilePatch ids before edit.after = some profile) :
    (withPermissions cluster before edit.after profile).apply cluster.account = cluster.account ↔
      ProfileHeld ids cluster before edit := by
  obtain ⟨aliases, sentAliases, rest⟩ := Option.bind_eq_some_iff.mp resolved
  obtain ⟨groups, sentGroups, rfl⟩ := Option.map_eq_some_iff.mp rest
  have locale : (Option.map some (if before.locale = edit.after.locale then none
      else some edit.after.locale)).getD cluster.account.locale = cluster.account.locale ↔
      (¬ before.locale = edit.after.locale → some edit.after.locale = cluster.account.locale) := by
    rw [apply_ite (Option.map some)]
    exact getD_ite
  have groupsHeld := ifChanged_getD sentGroups cluster.account.memberGroupIds
  rw [decide_eq_true_iff] at groupsHeld
  rw [withPermissions_eq, apply_eq_self_iff]
  simp only [getD_ite, locale, ifChanged_getD sentAliases, groupsHeld]
  constructor
  · rintro ⟨description, locale, timeZone, quotas, aliases, groups, permissions⟩
    exact ⟨description, locale, timeZone, quotas, aliases, groups, permissions⟩
  · rintro ⟨description, locale, timeZone, quotas, aliases, groups, permissions⟩
    exact ⟨description, locale, timeZone, quotas, aliases, groups, permissions⟩

theorem keep_updateAccount_iff {patch : Patch} :
    keep cluster.held (.updateAccount patch) = cluster.held ↔
      patch.apply cluster.account = cluster.account := by
  refine ⟨fun same => congrArg Held.account same, fun same => ?_⟩
  exact Held.ext same rfl rfl

theorem update_calls_settled {profile : Patch}
    (resolved : profilePatch ids before edit.after = some profile) :
    Settled keep cluster.held (updateCalls cluster before edit.after profile ++ rest) ↔
      (ProfileHeld ids cluster before edit ∨ rest = []) ∧ Settled keep cluster.held rest := by
  have reads : ∀ calls : List Call, Settled keep cluster.held
      ((if before.disableReceiving = edit.after.disableReceiving then [] else [Call.readPermissions]) ++
        calls) ↔ Settled keep cluster.held calls := by
    intro calls
    split
    · rfl
    · exact settled_cons_of_quiet rfl
  rw [updateCalls, List.append_assoc, reads, ← apply_withPermissions_iff resolved]
  split
  · next nothing =>
    have same : Patch.empty.apply cluster.account = cluster.account := rfl
    rw [List.nil_append, nothing, and_iff_right (Or.inl same)]
  · rw [List.singleton_append, settled_cons, keep_updateAccount_iff, or_comm]

theorem keep_updateCredential_iff {kind : Kind} {entry : ℕ × CredentialRow} :
    keep cluster.held (.updateCredential kind entry.1 entry.2.credential) = cluster.held ↔
      CredentialHeld cluster kind entry := by
  constructor
  · intro same credential there
    have written := congrFun (congrFun (congrArg Held.credentials same) kind) entry.1
    have there : cluster.credentials kind entry.1 = some credential := there
    simp only [keep, writeCredential, Cluster.held, and_self, if_true, there, Option.map_some] at written
    exact (Option.some.inj written).symm
  · intro held
    refine Held.ext rfl ?_ rfl
    funext other id
    simp only [keep, writeCredential, Cluster.held]
    split
    · next same =>
      obtain ⟨rfl, rfl⟩ := same
      cases there : cluster.credentials other entry.1 with
      | none => rfl
      | some credential => rw [held credential there, Option.map_some]
    · rfl

theorem pushKind_eq_nil {kind : Kind} : pushKind before edit kind = [] ↔ Untouched before edit kind := by
  unfold pushKind Untouched
  split
  · next untouched => exact iff_of_true rfl untouched
  · next touched => exact iff_of_false (List.cons_ne_nil _ _) touched

theorem pushKind_quiet {kind : Kind} :
    (∀ call ∈ pushKind before edit kind, keep cluster.held call = cluster.held) ↔
      CredentialsHeld cluster before edit kind := by
  unfold pushKind CredentialsHeld
  split
  · next untouched => simp only [untouched.2.1, List.not_mem_nil, false_implies, implies_true]
  · simp only [List.forall_mem_cons, List.forall_mem_append, List.forall_mem_map,
      keep_updateCredential_iff]
    exact ⟨fun quiet => quiet.2.2, fun held => ⟨rfl, fun _ _ => rfl, held⟩⟩

theorem settled_pushKind {kind : Kind} :
    Settled keep cluster.held (pushKind before edit kind) ↔ OthersHeld cluster before edit kind := by
  unfold pushKind OthersHeld
  split
  · next untouched =>
    simp only [untouched.2.1, List.dropLast_nil, settled_nil, List.not_mem_nil, false_implies,
      implies_true]
  · have creations : ∀ call ∈ (added edit kind).map fun row => .createCredential kind row.credential,
        keep cluster.held call = cluster.held := by
      simp only [List.forall_mem_map]
      exact fun _ _ => rfl
    rw [settled_cons_of_quiet rfl, settled_append, and_iff_right (Or.inr creations), Settled,
      ← List.map_dropLast]
    simp only [List.forall_mem_map, keep_updateCredential_iff]

theorem kind_calls_settled {kind : Kind} :
    Settled keep cluster.held (pushKind before edit kind ++ rest) ↔
      (CredentialsHeld cluster before edit kind ∨ (OthersHeld cluster before edit kind ∧ rest = [])) ∧
        Settled keep cluster.held rest := by
  rw [settled_append, settled_pushKind, pushKind_quiet, or_comm, and_comm (a := rest = [])]

theorem setPassword_sent : (setPassword edit).sent = [] ∧ ¬ PasswordGiven edit ∨
    (∃ password, (setPassword edit).sent = [.readCredentials, .setPassword password]) ∧
      PasswordGiven edit := by
  unfold setPassword
  cases given : edit.password.filter (· ≠ "") with
  | none =>
    refine Or.inl ⟨rfl, ?_⟩
    rintro ⟨password, there, long⟩
    have there : edit.password = some password := there
    have empty : password = "" := by simpa [there] using given
    rw [empty] at long
    exact absurd long (by decide)
  | some password =>
    have there : edit.password = some password := (Option.filter_eq_some_iff.mp given).1
    by_cases long : minPasswordLength ≤ password.length
    · refine Or.inr ⟨⟨password, ?_⟩, password, there, long⟩
      simp only [Calls.check, long, decide_true, if_true, Calls.bind, Calls.send, List.nil_append]
    · refine Or.inl ⟨?_, ?_⟩
      · simp only [Calls.check, long, decide_false, Bool.false_eq_true, if_false, Calls.bind]
      · rintro ⟨other, given, fits⟩
        obtain rfl : password = other := Option.some.inj (there.symm.trans given)
        exact long fits

theorem setPassword_sent_eq_nil : (setPassword edit).sent = [] ↔ ¬ PasswordGiven edit := by
  rcases setPassword_sent with ⟨none, short⟩ | ⟨⟨password, sent⟩, given⟩
  · exact iff_of_true none short
  · refine iff_of_false ?_ (not_not.mpr given)
    rw [sent]
    exact List.cons_ne_nil _ _

theorem settled_setPassword : Settled keep cluster.held (setPassword edit).sent := by
  rcases setPassword_sent with ⟨none, -⟩ | ⟨⟨password, sent⟩, -⟩
  · rw [none]
    exact settled_nil
  · rw [sent]
    exact (settled_cons_of_quiet rfl).mpr (settled_singleton _)

theorem keep_setRoles_iff {roles : Roles} :
    keep cluster.held (.setRoles roles) = cluster.held ↔ cluster.account.roles = roles := by
  constructor
  · intro same
    exact (congrArg (fun held => held.account.roles) same).symm
  · rintro rfl
    rfl

/-- The calls after the credentials. -/
def lastCalls (cluster : Cluster) (before : MailAccount) (edit : Edit) : List Call :=
  ((pushEnabled cluster before edit.after).bind fun _ => setPassword edit).sent

theorem lastCalls_eq_nil : lastCalls cluster before edit = [] ↔ EndsWithCredentials before edit := by
  unfold lastCalls pushEnabled EndsWithCredentials
  split
  · next same => rw [Calls.done_bind, setPassword_sent_eq_nil, and_iff_right same]
  · next changed =>
    refine iff_of_false ?_ fun ends => changed ends.1
    split
    · exact List.cons_ne_nil _ _
    · cases disabledRole cluster with
      | none => exact List.cons_ne_nil _ _
      | some role => exact List.cons_ne_nil _ _

theorem role_calls_settled :
    Settled keep cluster.held (lastCalls cluster before edit) ↔
      RolesHeld cluster before edit ∨ ¬ PasswordGiven edit := by
  have set : ∀ roles : Roles, Settled keep cluster.held (.setRoles roles :: (setPassword edit).sent) ↔
      cluster.account.roles = roles ∨ ¬ PasswordGiven edit := by
    intro roles
    rw [settled_cons, and_iff_left settled_setPassword, keep_setRoles_iff, setPassword_sent_eq_nil,
      or_comm]
  unfold lastCalls pushEnabled RolesHeld
  split
  · next same => exact iff_of_true settled_setPassword (Or.inl fun changed => absurd same changed)
  · next changed =>
    simp only [ne_eq, changed, not_false_eq_true, true_implies]
    split
    · exact set .user
    · cases found : disabledRole cluster with
      | none => exact iff_of_true (settled_singleton _) (Or.inl nofun)
      | some role =>
        refine (settled_cons_of_quiet rfl).trans ((set (.custom {role})).trans (or_congr_left ?_))
        exact ⟨fun held other same => Option.some.inj same ▸ held, fun held => held role rfl⟩

end Parts

/-! ### Which refusals leave no trace -/

theorem onUpdate_sent {ids : Ids} {cluster : Cluster} {before : MailAccount} {edit : Edit}
    (pushes : edit.pushes = true) :
    (onUpdate ids cluster before edit).sent = exemptionCalls cluster before edit.after ++
      match profilePatch ids before edit.after with
      | none => []
      | some profile => updateCalls cluster before edit.after profile ++
          (pushKind before edit .appPassword ++ (pushKind before edit .apiKey ++
            lastCalls cluster before edit)) := by
  rw [onUpdate, if_pos pushes]
  cases profilePatch ids before edit.after with
  | none => rfl
  | some profile => rfl

/-- **A refused save changes nothing on the cluster exactly when** the exemption asks for what the
cluster has, and so does, where the aliases and groups resolve, each part with a call after it. -/
theorem refused_save_iff (ids : Ids) (cluster : Cluster) (before : MailAccount) (edit : Edit) :
    RefusalHarmless ids cluster before edit ↔
      (edit.pushes = true → ExemptionHeld cluster before edit ∧
        (Resolves ids before edit → PartsHeld ids cluster before edit)) := by
  rw [refusalHarmless_iff]
  by_cases pushes : edit.pushes = true
  · rw [onUpdate_sent pushes, exemption_calls_settled, resolves_iff]
    simp only [pushes, true_implies]
    refine and_congr_right fun _ => ?_
    cases resolved : profilePatch ids before edit.after with
    | none => exact iff_of_true settled_nil fun ⟨_, found⟩ => nomatch found
    | some profile =>
      simp only [update_calls_settled resolved, kind_calls_settled, role_calls_settled,
        List.append_eq_nil_iff, pushKind_eq_nil, lastCalls_eq_nil]
      constructor
      · rintro ⟨profile, appPasswords, apiKeys, roles⟩ -
        exact ⟨profile, appPasswords, apiKeys, roles⟩
      · intro held
        obtain ⟨profile, appPasswords, apiKeys, roles⟩ := held ⟨_, rfl⟩
        exact ⟨profile, appPasswords, apiKeys, roles⟩
  · rw [onUpdate, if_neg pushes]
    exact iff_of_true settled_nil fun contra => absurd contra pushes

/-- An account without aliases, groups, credentials or quotas. -/
def alice : MailAccount where
  email := "alice@acme.com"
  stalwartId := some "b"
  skipOutboundScan := false
  displayName := some "Alice"
  locale := "en-US"
  timeZone := none
  quotas := []
  aliases := []
  groups := []
  disableReceiving := false
  credentials := fun _ => []
  enabled := true

/-- The cluster that has it as it is. -/
def aliceSynced : Cluster where
  account :=
    { description := some "Alice"
      locale := some "en-US"
      timeZone := none
      quotas := ∅
      aliases := []
      memberGroupIds := ∅
      permissions := ⟨.inherit, ∅, ∅⟩
      roles := .user
      password := some "hunter2hunter2" }
  credentials := fun _ _ => none
  exemptKeys := []
  roles := [("suite-disabled", "r")]
  next := 0
  issued := fun _ _ _ => rfl

/-- Exempted from the scan and renamed in one save. -/
def aliceExempted : Edit where
  after := { alice with skipOutboundScan := true, displayName := some "Alice Doe" }
  password := none
  loaded := fun _ => []
  skipPush := false

/-- **An exemption outlives its save**: the key is created, the new name is refused, and the account
stays exempt on the cluster though the save was rolled back. -/
theorem exemption_outlives_save : ¬ RefusalHarmless ⟨fun _ => none, fun _ => none⟩ aliceSynced alice
    aliceExempted := by
  intro harmless
  have sent : 3 < (onUpdate ⟨fun _ => none, fun _ => none⟩ aliceSynced alice aliceExempted).sent.length :=
    by decide
  have left : (afterRefusal ⟨fun _ => none, fun _ => none⟩ aliceSynced alice aliceExempted 3).exemptKeys =
      ["alice@acme.com"] := by
    decide
  have kept : (afterRefusal ⟨fun _ => none, fun _ => none⟩ aliceSynced alice aliceExempted 3).exemptKeys =
      [] := congrArg Held.exemptKeys (harmless 3 sent)
  exact List.cons_ne_nil _ _ (left.symm.trans kept)

end SuiteCloud.Mail.Accounts
