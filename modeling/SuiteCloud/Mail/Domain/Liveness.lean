/-
**Whether mail flows: the Mail Domain and its cluster.**

### What is proved

* `validate_isLive` — what a save makes of liveness: kept, or with the setting on, that of `enabled`.
* `Agrees` — **the cluster's `isEnabled` is `enabled` and `is_verified`** of the stored domain.
* `agrees_save`, `agrees_verify`, … — every operation keeps it, but one.
* `refresh_agrees_iff` — a refresh keeps it exactly when it does not meet an enabled and unverified
  domain with the setting on: its save vouches for the domain, and skips the push.
* `liveness_agrees` — over every run without such a refresh; and such a refresh ends the agreement.
-/

import SuiteCloud.Mail.Domain.Model

set_option linter.unusedSectionVars false

namespace SuiteCloud.Mail.Domain

open SuiteCloud.Library

variable {Name Zone : Type} [DecidableEq Name] {build : Zone → Bool → List Row}

/-! ### What a save makes of liveness -/

theorem lapse_same {stored doc : MailDomain Zone} (same : stored.enabled = doc.enabled) :
    lapse (some stored) doc = doc := by
  show (if _ then _ else doc) = doc
  rw [if_neg fun changed => changed.1 same]

theorem relist_enabled (before : Option (MailDomain Zone)) (doc : MailDomain Zone) :
    (relist build before doc).enabled = doc.enabled ∧
      (relist build before doc).isVerified = doc.isVerified := by
  cases before with
  | none => exact ⟨rfl, rfl⟩
  | some stored =>
    simp only [relist]
    by_cases changed : stored.publishClientDiscoveryRecords ≠ doc.publishClientDiscoveryRecords
    · rw [if_pos changed]
      exact ⟨rfl, rfl⟩
    · rw [if_neg changed]
      exact ⟨rfl, rfl⟩

theorem vouch_enabled (skipped : Bool) (doc : MailDomain Zone) :
    (vouch skipped doc).enabled = doc.enabled ∧
      (vouch skipped doc).isVerified = if skipped then doc.enabled else doc.isVerified := by
  cases skipped with
  | true => exact ⟨rfl, rfl⟩
  | false => exact ⟨rfl, rfl⟩

theorem validate_enabled {skipped : Bool} {before : Option (MailDomain Zone)}
    {doc : MailDomain Zone} (same : ∀ stored, before = some stored → stored.enabled = doc.enabled) :
    (validate build skipped before doc).enabled = doc.enabled ∧
      (validate build skipped before doc).isVerified
        = if skipped then doc.enabled else doc.isVerified := by
  have lapsed : lapse before doc = doc := by
    cases before with
    | none => rfl
    | some stored => exact lapse_same (same stored rfl)
  unfold validate
  rw [lapsed, (relist_enabled before _).1, (relist_enabled before _).2]
  exact vouch_enabled skipped doc

theorem validate_new (skipped : Bool) (doc : MailDomain Zone) :
    (validate build skipped none doc).enabled = doc.enabled ∧
      (validate build skipped none doc).isVerified = if skipped then doc.enabled else doc.isVerified :=
  validate_enabled fun _ absurd => nomatch absurd

theorem validate_isLive {skipped : Bool} {before : Option (MailDomain Zone)}
    {doc : MailDomain Zone} (same : ∀ stored, before = some stored → stored.enabled = doc.enabled) :
    (validate build skipped before doc).isLive = if skipped then doc.enabled else doc.isLive := by
  obtain ⟨enabled, verified⟩ := validate_enabled same
  rw [MailDomain.isLive, enabled, verified]
  cases skipped with
  | true => exact Bool.and_self _
  | false => rfl

/-! ### Agreement -/

/-- The cluster's domain is enabled exactly when the stored one is live. -/
def AgreesOn (s : State Name Zone) (name : Name) : Prop :=
  ∀ doc, s.domains name = some doc →
    ∃ live, s.onCluster name = some live ∧ live.isEnabled = doc.isLive

/-- **Stored domains and cluster agree on whether mail flows.** -/
def Agrees (s : State Name Zone) : Prop := ∀ name, AgreesOn s name

/-- An operation on one domain leaves the others, and the setting. -/
structure Frame (s s' : State Name Zone) (name : Name) : Prop where
  skipped : s'.skipped = s.skipped
  domains : ∀ other, other ≠ name → s'.domains other = s.domains other
  onCluster : ∀ other, other ≠ name → s'.onCluster other = s.onCluster other

theorem Frame.refl (s : State Name Zone) (name : Name) : Frame s s name :=
  ⟨rfl, fun _ _ => rfl, fun _ _ => rfl⟩

theorem Frame.trans {s middle s' : State Name Zone} {name : Name} (first : Frame s middle name)
    (second : Frame middle s' name) : Frame s s' name where
  skipped := second.skipped.trans first.skipped
  domains other different := (second.domains other different).trans (first.domains other different)
  onCluster other different :=
    (second.onCluster other different).trans (first.onCluster other different)

theorem frame_store (s : State Name Zone) (name : Name) (doc : MailDomain Zone) :
    Frame s (s.store name doc) name :=
  ⟨rfl, fun _ different => Function.update_of_ne different _ _, fun _ _ => rfl⟩

theorem frame_push (s : State Name Zone) (name : Name) (live : ClusterDomain) :
    Frame s (s.push name live) name :=
  ⟨rfl, fun _ _ => rfl, fun _ different => Function.update_of_ne different _ _⟩

theorem Agrees.of_frame {s s' : State Name Zone} {name : Name} (agrees : Agrees s)
    (frame : Frame s s' name) (here : AgreesOn s' name) : Agrees s' := by
  intro other
  by_cases same : other = name
  · subst same
    exact here
  · unfold AgreesOn
    rw [frame.domains other same, frame.onCluster other same]
    exact agrees other

/-! ### Saves -/

theorem save_cases {s s' : State Name Zone} {name : Name} {doc : MailDomain Zone} {skipPush : Bool}
    (taken : save build s name doc skipPush = some s') :
    ∃ stored, s.domains name = some stored ∧
      let saved := validate build s.skipped (some stored) doc
      Frame s s' name ∧ s'.domains name = some saved ∧
      (s'.onCluster name = some saved.stalwartPatch ∨
        (s'.onCluster name = s.onCluster name ∧
          (skipPush = false → stored.pushedFields = saved.pushedFields))) := by
  unfold save at taken
  cases here : s.domains name with
  | none => rw [here] at taken; cases taken
  | some stored =>
    rw [here] at taken
    refine ⟨stored, rfl, ?_⟩
    simp only [Option.some.injEq] at taken
    subst taken
    by_cases pushes : skipPush = false ∧
        stored.pushedFields ≠ (validate build s.skipped (some stored) doc).pushedFields
    · rw [if_pos pushes]
      refine ⟨(frame_store s name _).trans (frame_push _ name _), ?_, Or.inl ?_⟩
      · exact Function.update_self _ _ _
      · exact Function.update_self _ _ _
    · rw [if_neg pushes]
      refine ⟨frame_store s name _, Function.update_self _ _ _, Or.inr ⟨rfl, ?_⟩⟩
      intro pushing
      exact not_not.mp fun differ => pushes ⟨pushing, differ⟩

/-- A save that pushes keeps the agreement. -/
theorem agrees_save {s s' : State Name Zone} {name : Name} {doc : MailDomain Zone}
    (agrees : Agrees s) (taken : save build s name doc false = some s') : Agrees s' := by
  obtain ⟨stored, here, frame, saved, cluster⟩ := save_cases taken
  refine agrees.of_frame frame ?_
  intro found there
  obtain rfl := Option.some.inj (saved.symm.trans there)
  rcases cluster with pushed | ⟨same, unchanged⟩
  · exact ⟨_, pushed, rfl⟩
  · obtain ⟨live, before, enabled⟩ := agrees name stored here
    refine ⟨live, same.trans before, ?_⟩
    have fields := unchanged rfl
    simp only [MailDomain.pushedFields, Prod.mk.injEq] at fields
    rw [enabled, MailDomain.isLive, MailDomain.isLive, fields.2.2.2.2.1, fields.2.2.2.2.2]

theorem agreesOn_save_unpushed_iff {s s' : State Name Zone} {name : Name}
    {stored doc : MailDomain Zone} {live : ClusterDomain} (here : s.domains name = some stored)
    (cluster : s.onCluster name = some live) (same : stored.enabled = doc.enabled)
    (taken : save build s name doc true = some s') :
    AgreesOn s' name ↔ live.isEnabled = if s.skipped then doc.enabled else doc.isLive := by
  obtain ⟨found, there, -, saved, after⟩ := save_cases taken
  obtain rfl := Option.some.inj (here.symm.trans there)
  have liveness : (validate build s.skipped (some stored) doc).isLive
      = if s.skipped then doc.enabled else doc.isLive := by
    refine validate_isLive ?_
    intro other equal
    obtain rfl := Option.some.inj equal
    exact same
  have unpushed : s'.onCluster name = some live := by
    unfold save at taken
    rw [here] at taken
    simp only [Bool.true_eq_false, false_and, if_false, Option.some.injEq] at taken
    subst taken
    exact cluster
  rw [← liveness]
  constructor
  · intro agrees
    obtain ⟨other, equal, enabled⟩ := agrees _ saved
    obtain rfl := Option.some.inj (unpushed.symm.trans equal)
    exact enabled
  · intro enabled doc' equal
    obtain rfl := Option.some.inj (saved.symm.trans equal)
    exact ⟨live, unpushed, enabled⟩

theorem frame_save {s s' : State Name Zone} {name : Name} {doc : MailDomain Zone} {skipPush : Bool}
    (taken : save build s name doc skipPush = some s') : Frame s s' name := by
  obtain ⟨stored, -, frame, -⟩ := save_cases taken
  exact frame

/-! ### Refreshes -/

/-- **The refresh that vouches unheard**: the setting is on, and the domain enabled and unverified. -/
def VouchesUnheard (s : State Name Zone) (name : Name) : Prop :=
  ∃ doc, s.domains name = some doc ∧ s.skipped = true ∧ doc.enabled = true ∧ doc.isVerified = false

theorem frame_refresh {s s' : State Name Zone} {name : Name} {zone : Zone}
    (taken : refreshDnsRecords build s name zone = some s') : Frame s s' name := by
  unfold refreshDnsRecords at taken
  cases here : s.domains name with
  | none => rw [here] at taken; cases taken
  | some stored => rw [here] at taken; exact frame_save taken

/-- **A refresh keeps the agreement exactly when it does not vouch unheard.** -/
theorem refresh_agrees_iff {s s' : State Name Zone} {name : Name} {zone : Zone}
    (agrees : AgreesOn s name) (taken : refreshDnsRecords build s name zone = some s') :
    AgreesOn s' name ↔ ¬ VouchesUnheard s name := by
  unfold refreshDnsRecords at taken
  cases here : s.domains name with
  | none => rw [here] at taken; cases taken
  | some stored =>
    simp only [here] at taken
    obtain ⟨live, cluster, enabled⟩ := agrees stored here
    have kept : stored.enabled = (rebuildDnsRecords build stored zone).enabled := rfl
    rw [agreesOn_save_unpushed_iff here cluster kept taken, enabled]
    have unheard : VouchesUnheard s name ↔
        s.skipped = true ∧ stored.enabled = true ∧ stored.isVerified = false := by
      constructor
      · rintro ⟨doc, found, vouches⟩
        obtain rfl := Option.some.inj (here.symm.trans found)
        exact vouches
      · exact fun vouches => ⟨stored, here, vouches⟩
    rw [unheard]
    show stored.isLive = (if s.skipped then stored.enabled else stored.isLive) ↔ _
    unfold MailDomain.isLive
    cases s.skipped <;> cases stored.enabled <;> cases stored.isVerified <;> decide

/-! ### Verifications -/

theorem agrees_verify {s s' : State Name Zone} {name : Name} {answers : ℕ → Option Bool}
    (agrees : Agrees s) (taken : verifyDnsRecords build s name answers = some s') : Agrees s' := by
  unfold verifyDnsRecords at taken
  split at taken
  case h_2 => cases taken
  case h_1 stored live here cluster =>
    simp only at taken
    obtain ⟨other, equal, enabled⟩ := agrees name stored here
    obtain rfl := Option.some.inj (cluster.symm.trans equal)
    -- After the push the cluster has what the lookups made of the domain.
    have pushed : ∃ before : State Name Zone, Frame s before name ∧
        before.domains name = some stored ∧
        (∃ live, before.onCluster name = some live ∧
          live.isEnabled = (verified s.skipped answers stored).isLive) ∧
        save build before name (verified s.skipped answers stored) true = some s' := by
      by_cases changes : stored.isLive ≠ (verified s.skipped answers stored).isLive
      · rw [if_pos changes] at taken
        exact ⟨_, frame_push s name _, here, ⟨_, Function.update_self _ _ _, rfl⟩, taken⟩
      · rw [if_neg changes] at taken
        exact ⟨s, Frame.refl s name, here, ⟨live, cluster, enabled.trans (not_not.mp changes)⟩, taken⟩
    obtain ⟨before, frame, stays, ⟨live, onCluster, isEnabled⟩, saves⟩ := pushed
    refine agrees.of_frame (frame.trans (frame_save saves)) ?_
    have kept : stored.enabled = (verified s.skipped answers stored).enabled := rfl
    rw [agreesOn_save_unpushed_iff stays onCluster kept saves, isEnabled, frame.skipped]
    -- With the setting on, the verification has vouched for the domain already.
    unfold verified MailDomain.isLive
    cases s.skipped with
    | true => exact Bool.and_true _
    | false => rfl

theorem agrees_recheck {s s' : State Name Zone} {name : Name} {answers : ℕ → Option Bool}
    (agrees : Agrees s) (taken : recheckVouched build s name answers = some s') : Agrees s' := by
  unfold recheckVouched at taken
  cases here : s.domains name with
  | none => rw [here] at taken; cases taken
  | some stored =>
    simp only [here] at taken
    by_cases vouched : stored.verificationSkipped = true
    · rw [if_pos vouched] at taken
      obtain ⟨saved, saves, verifies⟩ := Option.bind_eq_some_iff.mp taken
      exact agrees_verify (agrees_save agrees saves) verifies
    · rw [if_neg vouched] at taken
      obtain rfl := Option.some.inj taken
      exact agrees

/-! ### Inserts and adoptions -/

theorem insert_eq_some {s s' : State Name Zone} {name : Name} {doc : MailDomain Zone} {zone : Zone}
    (taken : insert build s name doc zone = some s') :
    s.domains name = none ∧
      Frame s ((s.store name (validate build s.skipped none doc)).push name
        (validate build s.skipped none doc).stalwartPatch) name ∧
      refreshDnsRecords build ((s.store name (validate build s.skipped none doc)).push name
        (validate build s.skipped none doc).stalwartPatch) name zone = some s' := by
  unfold insert at taken
  split at taken
  case h_2 => cases taken
  case h_1 fresh absent =>
    exact ⟨fresh, (frame_store s name _).trans (frame_push _ name _), taken⟩

theorem adopt_eq_some {s s' : State Name Zone} {name : Name} {doc : MailDomain Zone} {zone : Zone}
    (taken : adopt build s name doc zone = some s') :
    ∃ live, s.domains name = none ∧ s.onCluster name = some live ∧
      refreshDnsRecords build (s.store name (validate build s.skipped none (adopted doc live))) name zone =
        some s' := by
  unfold adopt at taken
  split at taken
  case h_2 => cases taken
  case h_1 live fresh cluster => exact ⟨live, fresh, cluster, taken⟩

theorem agrees_insert_refresh {s before s' : State Name Zone} {name : Name} {doc : MailDomain Zone}
    {zone : Zone} {live : ClusterDomain} (agrees : Agrees s) (frame : Frame s before name)
    (stored : before.domains name = some (validate build s.skipped none doc))
    (cluster : before.onCluster name = some live)
    (enabled : live.isEnabled = (validate build s.skipped none doc).isLive)
    (taken : refreshDnsRecords build before name zone = some s') : Agrees s' := by
  refine agrees.of_frame (frame.trans (frame_refresh taken)) ?_
  have agreesHere : AgreesOn before name := by
    intro found there
    obtain rfl := Option.some.inj (stored.symm.trans there)
    exact ⟨live, cluster, enabled⟩
  rw [refresh_agrees_iff agreesHere taken]
  rintro ⟨found, there, skipped, isEnabled, unverified⟩
  obtain rfl := Option.some.inj (stored.symm.trans there)
  rw [frame.skipped] at skipped
  rw [(validate_new _ _).1] at isEnabled
  rw [(validate_new _ _).2, skipped, if_pos rfl, isEnabled] at unverified
  cases unverified

theorem agrees_insert {s s' : State Name Zone} {name : Name} {doc : MailDomain Zone} {zone : Zone}
    (agrees : Agrees s) (taken : insert build s name doc zone = some s') : Agrees s' := by
  obtain ⟨-, frame, refreshed⟩ := insert_eq_some taken
  exact agrees_insert_refresh agrees frame (Function.update_self _ _ _)
    (Function.update_self _ _ _) rfl refreshed

theorem agrees_adopt {s s' : State Name Zone} {name : Name} {doc : MailDomain Zone} {zone : Zone}
    (agrees : Agrees s) (taken : adopt build s name doc zone = some s') : Agrees s' := by
  obtain ⟨live, -, cluster, refreshed⟩ := adopt_eq_some taken
  refine agrees_insert_refresh agrees (frame_store s name _) (Function.update_self _ _ _) cluster
    ?_ refreshed
  have liveness : (validate build s.skipped none (adopted doc live)).isLive
      = if s.skipped then (adopted doc live).enabled else (adopted doc live).isLive :=
    validate_isLive fun _ absurd => nomatch absurd
  rw [liveness]
  -- An adopted domain is enabled and verified together.
  unfold adopted MailDomain.isLive
  cases s.skipped with
  | true => rfl
  | false => exact (Bool.and_self _).symm

/-! ### Every run -/

/-- **The condition**: no refresh meets an enabled and unverified domain with the setting on. -/
def refreshesHeard (s : State Name Zone) : Action Name Zone → Prop
  | .refresh name _ => ¬ VouchesUnheard s name
  | _ => True

theorem agrees_step {s s' : State Name Zone} {action : Action Name Zone} (agrees : Agrees s)
    (heard : refreshesHeard s action) (taken : step build s action = some s') : Agrees s' := by
  cases action with
  | insert name doc zone => exact agrees_insert agrees taken
  | adopt name doc zone => exact agrees_adopt agrees taken
  | save name doc => exact agrees_save agrees taken
  | refresh name zone =>
    exact agrees.of_frame (frame_refresh taken)
      ((refresh_agrees_iff (agrees name) taken).mpr heard)
  | verify name answers => exact agrees_verify agrees taken
  | recheck name answers => exact agrees_recheck agrees taken
  | delete name =>
    obtain rfl := Option.some.inj taken
    intro other doc here
    obtain ⟨different, here⟩ := update_none_eq_some here
    obtain ⟨live, cluster, enabled⟩ := agrees other doc here
    exact ⟨live, (Function.update_of_ne different _ _).trans cluster, enabled⟩
  | setSkipped skipped =>
    obtain rfl := Option.some.inj taken
    exact agrees

/-- **A Mail Domain and its cluster agree on whether mail flows** in every state reached by operations
of which none is a refresh of an enabled and unverified domain with the setting on; the first such
refresh ends the agreement. -/
theorem liveness_agrees (build : Zone → Bool → List Row) (skipped : Bool)
    (onCluster : Name → Option ClusterDomain) (s : State Name Zone)
    (reached : Reaches (step build) refreshesHeard (State.initial skipped onCluster) s) :
    (∀ name doc, s.domains name = some doc →
      ∃ live, s.onCluster name = some live ∧
        live.isEnabled = (doc.enabled && doc.isVerified)) ∧
    ∀ action s', step build s action = some s' → ¬ refreshesHeard s action → ¬ Agrees s' := by
  have agrees : Agrees s := by
    refine reached.invariant Agrees ?_ ?_
    · intro name doc here
      cases here
    · intro here there action agrees heard taken
      exact agrees_step agrees heard taken
  refine ⟨agrees, ?_⟩
  intro action s' taken unheard after
  cases action with
  | refresh name zone => exact unheard ((refresh_agrees_iff (agrees name) taken).mp (after name))
  | insert name doc zone => exact unheard trivial
  | adopt name doc zone => exact unheard trivial
  | save name doc => exact unheard trivial
  | verify name answers => exact unheard trivial
  | recheck name answers => exact unheard trivial
  | delete name => exact unheard trivial
  | setSkipped skipped => exact unheard trivial

/-- An enabled domain no lookup has verified yet. -/
def unverifiedDomain : MailDomain Unit where
  tenant := "acme"
  description := ""
  catchAllAddress := none
  subAddressing := true
  allowRelaying := false
  enabled := true
  isVerified := false
  skipScheduledVerification := false
  verificationSkipped := false
  publishClientDiscoveryRecords := false
  rows := []
  dnsZoneFile := ()

/-- With the setting turned on, a form save vouches for the domain and tells the cluster. -/
theorem liveness_agrees_saved :
    ∃ s : State ℕ Unit, Reaches (step fun _ _ => []) refreshesHeard
        (State.initial false fun _ => none) s ∧
      (∃ doc, s.domains 0 = some doc ∧ doc.isVerified = true) ∧
      ∀ doc, s.domains 0 = some doc → ∃ live, s.onCluster 0 = some live ∧
        live.isEnabled = (doc.enabled && doc.isVerified) := by
  have seen : (run (step fun _ _ => []) (State.initial false fun _ => none)
      [.insert 0 unverifiedDomain (), .setSkipped true, .save 0 unverifiedDomain]).map
      (fun s : State ℕ Unit => (s.domains 0).map (·.isVerified)) = some (some true) := by
    decide
  obtain ⟨s, ends, vouched⟩ := Option.map_eq_some_iff.mp seen
  have reached : Reaches (step fun _ _ => []) refreshesHeard (State.initial false fun _ => none) s :=
    reaches_of_run (runMeets_of_forall (by simp [refreshesHeard])) ends
  exact ⟨s, reached, Option.map_eq_some_iff.mp vouched,
    (liveness_agrees (fun _ _ => []) false (fun _ => none) s reached).1 0⟩

/-- **A refresh with the setting on** makes the stored domain live, and the cluster never hears of
it. -/
theorem refresh_vouches_unheard :
    ¬ ∀ s : State ℕ Unit, Reaches (step fun _ _ => []) anyStep (State.initial false fun _ => none) s →
      ∀ name doc, s.domains name = some doc →
        ∃ live, s.onCluster name = some live ∧ live.isEnabled = (doc.enabled && doc.isVerified) := by
  intro agrees
  have seen : (run (step fun _ _ => []) (State.initial false fun _ => none)
      [.insert 0 unverifiedDomain (), .setSkipped true, .refresh 0 ()]).map
      (fun s : State ℕ Unit => ((s.domains 0).map (·.isLive), (s.onCluster 0).map (·.isEnabled)))
      = some (some true, some false) := by decide
  obtain ⟨s, ends, seen⟩ := Option.map_eq_some_iff.mp seen
  obtain ⟨domain, cluster⟩ := Prod.mk.inj seen
  obtain ⟨doc, here, isLive⟩ := Option.map_eq_some_iff.mp domain
  obtain ⟨live, there, isEnabled⟩ := agrees s
    (reaches_of_run (runMeets_of_forall fun _ _ _ => trivial) ends) 0 doc here
  rw [there] at cluster
  have isOff : live.isEnabled = false := Option.some.inj cluster
  have isOn : (doc.enabled && doc.isVerified) = true := isLive
  rw [isOff, isOn] at isEnabled
  cases isEnabled

end SuiteCloud.Mail.Domain
