/-
**A Suite Site's setup job ends.**

Whatever Pilot, Central, the site and the rest answer, and wherever the worker dies.

* `createEnds`, `configureEnds` — what `create` and `configure` can make of a site.
* `work_frames` — **a follow-up writes nothing the jobs share**, the status among it.
* `followsUp_tried` — **no follow-up is tried twice** in the loop of `follow_up`.
* `rank`, `runStep_rank` — **each turn that goes on is a step down**.
* `life_reRolls` — **the re-rolls of a life** are counted by the attempts.
* `setup_job_ends` — the loops end, the re-rolls are few, and a follow-up leaves an active site active.
-/

import Mathlib.Data.List.Perm.Subperm
import SuiteCloud.Hosting.Setup.Model

namespace SuiteCloud.Hosting.Setup

open SuiteCloud.Library Program
open SuiteCloud.Hosting.Claims (Status)
open SuiteCloud.Hosting.Sites (SuiteSite stepFor)

variable {words : Wording} {site there kept now before : Site} {tried : List FollowUp} {advanced : Bool}
  {outcome : Outcome Stop Bool}

/-! ### Requests -/

theorem wp_call {A : Type} {Q : Outcome Stop A → Site → Site → Prop} :
    (call A).wp Q kept now ↔ (∀ value, Q (.value value) kept now) ∧
      (∀ message, Q (.error (.waits message)) kept now) ∧ ∀ message, Q (.error (.raises message)) kept now := by
  constructor
  · exact fun holds => ⟨fun value => holds (.gives value), fun message => holds (.waits message),
      fun message => holds (.raises message)⟩
  · rintro ⟨gives, waits, raises⟩ answer
    cases answer with
    | gives value => exact gives value
    | waits message => exact waits message
    | raises message => exact raises message

theorem wp_call_bind {A B : Type} {after : A → Step B} {Q : Outcome Stop B → Site → Site → Prop}
    (fails : ∀ error, Q (.error error) kept now) (goes : ∀ value, (after value).wp Q kept now) :
    (call A >>= after).wp Q kept now := by
  rw [wp_bind_iff, wp_call]
  exact ⟨goes, fun message => fails _, fun message => fails _⟩

/-! ### Creating and configuring -/

/-- **The site stays where it is**: its attempts, and its hostname once it has a server. -/
structure Stays (before after : Site) : Prop where
  attempts : after.attempts = before.attempts
  placed : before.virtualMachine.isSome → after.hostname = before.hostname ∧ after.virtualMachine.isSome

/-- Its hostname is re-rolled. -/
structure ReRolled (before after : Site) : Prop where
  attempts : after.attempts = before.attempts + 1
  few : after.attempts < SuiteSite.maxHostnameAttempts
  pending : after.status = .pending

theorem Stays.refl (site : Site) : Stays site site := ⟨rfl, fun placed => ⟨rfl, placed⟩⟩

/-- What `create` can end with. -/
def createEnds (before : Site) : Outcome Stop Bool → Site → Site → Prop
  | .value advanced, _, now =>
      (Stays before now ∧ (advanced = true → now.status = .assigned ∨ now.status = .ready)) ∨ ReRolled before now
  | .error _, kept, now => Stays before kept ∧ Stays before now
  | .died, kept, _ => Stays before kept

theorem markCreated_wp (stays : Stays before now) : markCreated.wp (createEnds before) kept now := by
  refine Or.inl ⟨⟨stays.attempts, stays.placed⟩, fun _ => ?_⟩
  show (if now.tenant.isSome then Status.assigned else .ready) = .assigned ∨ _ = Status.ready
  split
  · exact Or.inl rfl
  · exact Or.inr (if_neg (by assumption))

theorem rerollHostname_wp (output : String) (saved : Stays before kept) (stays : Stays before now) :
    (rerollHostname words output).wp (createEnds before) kept now := by
  rw [rerollHostname, wp_bind_iff, wp_read, goesOn_value]
  split
  · exact ⟨saved, stays⟩
  · next taken =>
    have few : now.attempts + 1 < SuiteSite.maxHostnameAttempts := not_le.mp fun many => taken (Or.inr many)
    refine wp_call_bind (fun error => ⟨saved, stays⟩) fun host => Or.inr ⟨?_, few, rfl⟩
    show now.attempts + 1 = before.attempts + 1
    rw [stays.attempts]

theorem awaitCreation_wp (kept : Site) (stays : Stays before now) :
    (awaitCreation words).wp (createEnds before) kept now := by
  rw [awaitCreation, waitForTask, wp_bind_iff, wp_bind_iff, wp_keep]
  refine ⟨stays, ?_⟩
  rw [goesOn_value, wp_call]
  refine ⟨fun status => ?_, fun message => ⟨stays, stays⟩, fun message => ⟨stays, stays⟩⟩
  rw [goesOn_value]
  cases status with
  | running => exact Or.inl ⟨stays, fun advanced => absurd advanced Bool.false_ne_true⟩
  | success => exact markCreated_wp stays
  | failed => exact wp_call_bind (fun error => ⟨stays, stays⟩) fun output => rerollHostname_wp output stays stays

theorem createOnServer_wp (saved : Stays before kept) (stays : Stays before now) :
    (createOnServer words).wp (createEnds before) kept now := by
  refine wp_call_bind (fun error => ⟨saved, stays⟩) fun _ => ?_
  show (if _ then _ else _ : Step Bool).wp _ _ _
  split
  · exact awaitCreation_wp kept stays
  · refine wp_call_bind (fun error => ⟨saved, stays⟩) fun names => ?_
    show (if _ then _ else _ : Step Bool).wp _ _ _
    split
    · exact markCreated_wp stays
    · refine wp_call_bind (fun error => ⟨saved, stays⟩) fun started => ?_
      cases started with
      | conflict code message =>
        show (if _ then _ else _ : Step Bool).wp _ _ _
        split
        · exact Or.inl ⟨stays, fun advanced => absurd advanced Bool.false_ne_true⟩
        · exact ⟨saved, stays⟩
      | task id =>
        have created : Stays before (now.onJob (SuiteSite.creating id)) := ⟨stays.attempts, stays.placed⟩
        exact awaitCreation_wp kept created

theorem create_wp (site : Site) : (create words).wp (createEnds site) site site := by
  have same := Stays.refl site
  show (if _ then _ else _ : Step Bool).wp _ _ _
  split
  · exact createOnServer_wp same same
  · next unplaced =>
    refine wp_call_bind (fun error => ⟨same, same⟩) fun place => ?_
    cases place with
    | none => exact Or.inl ⟨⟨rfl, fun placed => ⟨rfl, placed⟩⟩, fun advanced => absurd advanced Bool.false_ne_true⟩
    | some place => exact createOnServer_wp same ⟨rfl, fun placed => absurd placed unplaced⟩

/-- What `configure` can end with. -/
def configureEnds (before : Site) : Outcome Stop Bool → Site → Site → Prop
  | .value _, _, now => Stays before now ∧ now.status = .active
  | .error _, kept, now => Stays before kept ∧ Stays before now
  | .died, kept, _ => Stays before kept

theorem activate_wp (saved : Stays before kept) (stays : Stays before now) :
    (activate words).wp (configureEnds before) kept now := by
  rw [activate, wp_bind_iff, wp_ask]
  intro outside
  rw [goesOn_value, wp_bind_iff, wp_read, goesOn_value]
  split
  · exact ⟨saved, stays⟩
  · exact ⟨⟨stays.attempts, stays.placed⟩, rfl⟩

theorem configure_wp (site : Site) : (configure words).wp (configureEnds site) site site := by
  have same := Stays.refl site
  have begun : Stays site (site.onJob SuiteSite.configuring) := ⟨rfl, fun placed => ⟨rfl, placed⟩⟩
  show (if _ then _ else _ : Step Bool).wp _ _ _
  split
  · exact activate_wp same begun
  · have fails : ∀ error, configureEnds site (.error error) site (site.onJob SuiteSite.configuring) :=
      fun error => ⟨same, begun⟩
    have told : Stays site ((site.onJob SuiteSite.configuring).onJob SuiteSite.configured) :=
      ⟨rfl, fun placed => ⟨rfl, placed⟩⟩
    rw [configureSuite, wp_bind_iff]
    refine wp_call_bind fails fun _ => wp_call_bind fails fun _ => wp_call_bind fails fun _ =>
      wp_call_bind fails fun _ => wp_call.mpr
        ⟨fun _ => ?_, fun message => fails (.waits message), fun message => fails (.raises message)⟩
    exact ⟨told, activate_wp told told⟩

/-! ### Follow-ups -/

section FollowUps

variable {job : SuiteSite}

/-- The fields that the jobs share. -/
def HasJob (job : SuiteSite) (site : Site) : Prop := site.toSuiteSite = job

theorem frames_call {A : Type} {P : Site → Prop} : (call A).Frames P := by
  intro answer
  cases answer <;> trivial

theorem frames_call_bind {A B : Type} {P : Site → Prop} {after : A → Step B}
    (later : ∀ value, (after value).Frames P) : (call A >>= after).Frames P := frames_bind frames_call later

theorem frames_write_bind {B : Type} {P : Site → Prop} {change : Site → Site} {after : Unit → Step B}
    (leaves : ∀ site, P site → P (change site)) (later : (after ()).Frames P) :
    (write change >>= after).Frames P := frames_bind (frames_write leaves) fun _ => later

theorem frames_read_bind {B : Type} {P : Site → Prop} {after : Site → Step B}
    (later : ∀ site, (after site).Frames P) : (read >>= after).Frames P := frames_bind frames_read later

theorem frames_keep_bind {B : Type} {P : Site → Prop} {after : Unit → Step B} (later : (after ()).Frames P) :
    (keep >>= after).Frames P := frames_bind frames_keep fun _ => later

theorem waitForTask_frames {P : Site → Prop} : waitForTask.Frames P := frames_keep_bind frames_call

theorem ensureDomain_frames : (ensureDomain words).Frames (HasJob job) := by
  refine frames_read_bind fun site => ?_
  split
  · exact frames_call
  · refine frames_bind (fun _ => trivial) fun outside => frames_call_bind fun owned => ?_
    split
    · exact frames_write fun _ same => same
    · trivial

theorem verify_frames {P : Site → Prop} (live : Bool) : (verify live).Frames P := by
  cases live
  · exact frames_call
  · trivial

theorem ensure_frames : (ensure words).Frames (HasJob job) := by
  refine frames_call_bind fun hasCluster => ?_
  split
  · refine frames_bind ensureDomain_frames fun _ => frames_call_bind fun _ => frames_keep_bind ?_
    refine frames_call_bind fun confirmed => ?_
    split
    · refine frames_call_bind fun live => frames_bind (verify_frames live) fun verified => ?_
      split
      · exact frames_write_bind (fun _ same => same) trivial
      · trivial
    · trivial
  · exact frames_write_bind (fun _ same => same) trivial

theorem inviteOwner_frames : inviteOwner.Frames (HasJob job) :=
  frames_call_bind fun _ => frames_call_bind fun _ => frames_write_bind (fun _ same => same)
    (frames_call_bind fun _ => trivial)

theorem setRow_frames (domain : String) (change : SuiteSiteDomain → SuiteSiteDomain) :
    (setRow domain change).Frames (HasJob job) :=
  frames_write_bind (fun _ same => same) (frames_call_bind fun _ => trivial)

theorem addRow_frames (domain : String) : (addRow words domain).Frames (HasJob job) :=
  frames_write_bind (fun _ same => same) frames_call

theorem attached_frames (domain : String) : (attach.attached domain).Frames (HasJob job) := by
  refine frames_bind waitForTask_frames fun status => ?_
  cases status with
  | running => trivial
  | success => exact setRow_frames domain _
  | failed => exact frames_call_bind fun output => frames_bind (setRow_frames domain _) fun _ => trivial

theorem start_frames {P : Site → Prop} (task : Option String) : (start task).Frames P := by
  unfold start
  split
  · trivial
  · exact frames_call_bind fun _ => trivial

theorem attach_frames (domain : String) (task : Option String) :
    (attach words domain task).Frames (HasJob job) := by
  refine frames_call_bind fun _ => frames_bind (start_frames task) fun started => ?_
  cases started with
  | none => exact attached_frames domain
  | some started =>
    cases started with
    | task id => exact frames_bind (setRow_frames domain _) fun _ => attached_frames domain
    | conflict code message =>
      dsimp only
      split
      · exact setRow_frames domain _
      · exact frames_bind (setRow_frames domain _) fun _ => trivial

theorem makePrimary_frames (domain : String) : (makePrimary words domain).Frames (HasJob job) := by
  refine frames_read_bind fun site => ?_
  split
  · refine frames_call_bind fun problem => ?_
    cases problem with
    | some problem => trivial
    | none =>
      refine frames_call_bind fun _ => frames_bind waitForTask_frames fun status => ?_
      cases status with
      | running => trivial
      | failed => exact frames_call_bind fun output => trivial
      | success => exact frames_write_bind (fun _ same => same) frames_call
  · trivial

theorem ensurePrimary_frames (domain : String) : (ensurePrimary words domain).Frames (HasJob job) := by
  refine frames_read_bind fun site => ?_
  split
  · trivial
  · refine frames_keep_bind (frames_call_bind fun problem => ?_)
    cases problem with
    | some problem => exact setRow_frames domain _
    | none => exact frames_bind (makePrimary_frames domain) fun _ => trivial

theorem fetchRecords_frames (domain : String) : (fetchRecords domain).Frames (HasJob job) := by
  refine frames_call_bind fun fresh => ?_
  split
  · trivial
  · exact frames_call_bind fun records => frames_bind (setRow_frames domain _) fun _ => trivial

theorem ensureRow_frames (domain : String) : (ensureRow words domain).Frames (HasJob job) := by
  refine frames_read_bind fun site => ?_
  split
  · exact addRow_frames domain
  · trivial

theorem ensureSiteDomain_frames : (ensureSiteDomain words).Frames (HasJob job) := by
  refine frames_bind (fun _ => trivial) fun outside => frames_read_bind fun site => ?_
  split
  · trivial
  · next domain _ =>
    refine frames_bind (ensureRow_frames domain) fun _ => frames_read_bind fun site => ?_
    split
    · trivial
    · split
      · exact ensurePrimary_frames _
      · refine frames_bind (fetchRecords_frames _) fun _ => frames_call_bind fun _ =>
          frames_call_bind fun visible => ?_
        split
        · refine frames_bind (attach_frames _ _) fun attached => ?_
          split
          · exact ensurePrimary_frames _
          · trivial
        · trivial

theorem work_frames (followUp : FollowUp) : (followUp.work words).Frames (HasJob job) := by
  cases followUp with
  | mail => exact ensure_frames
  | ownerInvite => exact inviteOwner_frames
  | siteDomain => exact ensureSiteDomain_frames

theorem afterFollowUp_job {label : String} (keptJob : HasJob job kept) (nowJob : HasJob job now) :
    HasJob job (afterFollowUp words label outcome kept now) := by
  cases outcome with
  | value finished =>
    show HasJob job (if _ then _ else _)
    split
    · exact nowJob
    · exact nowJob
  | error stop =>
    cases stop with
    | waits message => exact nowJob
    | raises message => exact keptJob
  | died => exact keptJob

theorem outcome_job (label : String) {followUp : FollowUp}
    (ends : Ends (followUp.work words) site site outcome kept now) :
    (afterFollowUp words label outcome kept now).toSuiteSite = site.toSuiteSite := by
  obtain ⟨keptJob, nowJob⟩ := (work_frames followUp).ends ends (rfl : HasJob site.toSuiteSite site) rfl
  exact afterFollowUp_job keptJob nowJob

theorem followsUp_job {attempted : List String} {left : Left}
    (follows : FollowsUp words attempted site tried left there) : there.toSuiteSite = site.toSuiteSite := by
  induction follows with
  | finished => rfl
  | unread => rfl
  | dies => rfl
  | lost outside _ _ ends => exact outcome_job "" ends
  | next outside _ _ ends _ _ ih => exact ih.trans (outcome_job _ ends)

/-- **No follow-up is tried twice**: its label is among those attempted. -/
theorem followsUp_tried {attempted : List String} {left : Left}
    (follows : FollowsUp words attempted site tried left there) :
    tried.Nodup ∧ ∀ step ∈ tried, step.label words ∉ attempted := by
  induction follows with
  | finished => exact ⟨List.nodup_nil, fun _ none => absurd none List.not_mem_nil⟩
  | unread => exact ⟨List.nodup_nil, fun _ none => absurd none List.not_mem_nil⟩
  | dies => exact ⟨List.nodup_nil, fun _ none => absurd none List.not_mem_nil⟩
  | lost outside _ found =>
    have fresh := List.find?_some found
    simp only [decide_eq_true_eq] at fresh
    exact ⟨List.nodup_singleton _, fun step member => List.mem_singleton.mp member ▸ fresh⟩
  | next outside _ found _ _ _ ih =>
    have fresh := List.find?_some found
    simp only [decide_eq_true_eq] at fresh
    obtain ⟨distinct, later⟩ := ih
    refine ⟨List.nodup_cons.mpr ⟨fun again => later _ again List.mem_cons_self, distinct⟩, fun step member => ?_⟩
    rcases List.mem_cons.mp member with rfl | member
    · exact fresh
    · exact fun attempted => later step member (List.mem_cons_of_mem _ attempted)

theorem tried_few (distinct : tried.Nodup) : tried.length ≤ 3 := by
  have all : tried ⊆ [.mail, .ownerInvite, .siteDomain] := by
    intro step _
    cases step <;> decide
  exact (distinct.subperm all).length_le

theorem clearReason_job {outside : Outside} {cleared : Site} (clears : clearReason words outside site = some cleared) :
    cleared.toSuiteSite = site.toSuiteSite := by
  unfold clearReason at clears
  split at clears
  · obtain ⟨reason, -, rfl⟩ := Option.map_eq_some_iff.mp clears
    split <;> rfl
  · exact Option.some.inj clears ▸ rfl

end FollowUps

/-! ### Turns -/

/-- **How many turns are left**, at most, when a job goes on. -/
def rank (site : Site) : ℕ :=
  match site.status with
  | .pending | .creating => 3 + (SuiteSite.maxHostnameAttempts - site.attempts)
  | .assigned | .configuring => 2
  | .active => 1
  | _ => 0

theorem rank_le (site : Site) : rank site ≤ 8 := by
  unfold rank SuiteSite.maxHostnameAttempts
  split <;> omega

/-- **A turn of a job**: the site stays or its hostname is re-rolled; where the job goes on, nothing is followed
up and fewer turns are left. -/
structure Turned (site : Site) (tried : List FollowUp) (advanced : Bool) (there : Site) : Prop where
  stays : Stays site there ∨ ReRolled site there
  descends : advanced = true → rank there < rank site ∧ tried = []
  distinct : tried.Nodup
  active : tried ≠ [] → there.status = .active

theorem stays_of_job (same : there.toSuiteSite = site.toSuiteSite) : Stays site there := by
  refine ⟨congrArg SuiteSite.attempts same, fun placed => ⟨congrArg SuiteSite.hostname same, ?_⟩⟩
  have machine := congrArg SuiteSite.virtualMachine same
  exact machine ▸ placed

theorem stays_failed {message : Option String} (stays : Stays site there) :
    Stays site ((there.onJob SuiteSite.failed).noted message) := ⟨stays.attempts, stays.placed⟩

theorem create_turned (status : stepFor site.status = some .create)
    (ends : Ends (create words) site site outcome kept now) :
    Turned site [] (afterStep words outcome kept now).1 (afterStep words outcome kept now).2 := by
  have meets := ends.meets (Stays.refl site) (create_wp site)
  have none : ([] : List FollowUp) ≠ [] → (afterStep words outcome kept now).2.status = .active :=
    fun some => absurd rfl some
  have waiting : rank site = 3 + (SuiteSite.maxHostnameAttempts - site.attempts) := by
    unfold stepFor at status
    unfold rank
    split at status <;> cases status <;> simp_all
  cases outcome with
  | value advanced =>
    rcases meets with ⟨stays, created⟩ | rolled
    · refine ⟨Or.inl stays, fun goes => ⟨?_, rfl⟩, List.nodup_nil, none⟩
      show rank now < rank site
      rw [waiting]
      rcases created goes with status | status
      · rw [rank, status]
        simp only
        omega
      · rw [rank, status]
        simp only
        omega
    · refine ⟨Or.inr rolled, fun _ => ⟨?_, rfl⟩, List.nodup_nil, none⟩
      have attempts := rolled.attempts
      have few := rolled.few
      show rank now < rank site
      rw [waiting, rank, rolled.pending]
      simp only
      omega
  | error stop =>
    refine ⟨Or.inl ?_, fun goes => ?_, List.nodup_nil, none⟩
    · cases stop with
      | waits message => exact ⟨meets.2.attempts, meets.2.placed⟩
      | raises message => exact stays_failed meets.1
    · cases stop <;> cases goes
  | died => exact ⟨Or.inl meets, fun goes => (Bool.false_ne_true goes).elim, List.nodup_nil, none⟩

theorem configure_turned (status : stepFor site.status = some .configure)
    (ends : Ends (configure words) site site outcome kept now) :
    Turned site [] (afterStep words outcome kept now).1 (afterStep words outcome kept now).2 := by
  have meets := ends.meets (Stays.refl site) (configure_wp site)
  have none : ([] : List FollowUp) ≠ [] → (afterStep words outcome kept now).2.status = .active :=
    fun some => absurd rfl some
  have waiting : rank site = 2 := by
    unfold stepFor at status
    unfold rank
    split at status <;> cases status <;> simp_all
  cases outcome with
  | value advanced =>
    refine ⟨Or.inl meets.1, fun _ => ⟨?_, rfl⟩, List.nodup_nil, none⟩
    show rank now < rank site
    rw [waiting, rank, meets.2]
    simp only
    omega
  | error stop =>
    refine ⟨Or.inl ?_, fun goes => ?_, List.nodup_nil, none⟩
    · cases stop with
      | waits message => exact ⟨meets.2.attempts, meets.2.placed⟩
      | raises message => exact stays_failed meets.1
    · cases stop <;> cases goes
  | died => exact ⟨Or.inl meets, fun goes => (Bool.false_ne_true goes).elim, List.nodup_nil, none⟩

theorem followUp_turned {left : Left} (status : stepFor site.status = some .followUp)
    (follows : FollowUpStep words site tried left there) : Turned site tried false there := by
  have active : site.status = .active := by
    unfold stepFor at status
    split at status <;> cases status
    assumption
  have stuck : false = true → rank there < rank site ∧ tried = [] := fun goes => (Bool.false_ne_true goes).elim
  have whole {cleared after : Site} {outside : Outside} {tried : List FollowUp} {left : Left}
      (clears : clearReason words outside site = some cleared)
      (loop : FollowsUp words [] cleared tried left after) : after.toSuiteSite = site.toSuiteSite :=
    (followsUp_job loop).trans (clearReason_job clears)
  cases follows with
  | uncleared outside message _ =>
    exact ⟨Or.inl (stays_failed (Stays.refl site)), stuck, List.nodup_nil, fun some => absurd rfl some⟩
  | unread outside message clears loop =>
    exact ⟨Or.inl (stays_failed (stays_of_job (whole clears loop))), stuck, List.nodup_nil, fun some => absurd rfl some⟩
  | broken outside clears loop some =>
    have same := whole clears loop
    exact ⟨Or.inl (stays_of_job same), stuck, (followsUp_tried loop).1,
      fun _ => (congrArg SuiteSite.status same).trans active⟩
  | finished outside clears loop read =>
    have same := whole clears loop
    exact ⟨Or.inl (stays_of_job same), stuck, (followsUp_tried loop).1,
      fun _ => (congrArg SuiteSite.status same).trans active⟩

theorem runStep_turned (turn : RunStep words site tried advanced there) : Turned site tried advanced there := by
  cases turn with
  | create status ends => exact create_turned status ends
  | configure status ends => exact configure_turned status ends
  | followUp status follows => exact followUp_turned status follows

theorem turns_le_rank {n : ℕ} (turns : Turns words n site there) : n ≤ rank site := by
  induction turns with
  | none => exact Nat.zero_le _
  | next turn _ ih =>
    have down := ((runStep_turned turn).descends rfl).1
    omega

theorem provision_tried (job : Provision words site tried there) :
    tried.Nodup ∧ (tried ≠ [] → there.status = .active) := by
  induction job with
  | finished => exact ⟨List.nodup_nil, fun some => absurd rfl some⟩
  | last turn => exact ⟨(runStep_turned turn).distinct, (runStep_turned turn).active⟩
  | next turn _ ih =>
    obtain rfl := ((runStep_turned turn).descends rfl).2
    exact ih

/-! ### A life -/

theorem reRolled_le (before after : Site) : reRolled before after ≤ 1 := by
  unfold reRolled
  split <;> omega

theorem reRolled_of_stays (stays : Stays before there) : reRolled before there = 0 :=
  if_neg fun both => both.2 (stays.placed both.1).1

theorem written_stays (written : Written site there) : Stays site there := by
  cases written <;> exact ⟨rfl, fun placed => ⟨rfl, placed⟩⟩

/-- **The re-rolls of a life** are no more than the attempts, which are few. -/
theorem life_reRolls {start : Site} {n : ℕ} (life : Life words start n site) :
    n ≤ site.attempts ∧ (n = 0 ∨ site.attempts < SuiteSite.maxHostnameAttempts) := by
  induction life with
  | start => exact ⟨Nat.zero_le _, Or.inl rfl⟩
  | turn _ turn ih =>
    rcases (runStep_turned turn).stays with stays | rolled
    · rw [reRolled_of_stays stays, stays.attempts]
      exact ih
    · refine ⟨?_, Or.inr rolled.few⟩
      rw [rolled.attempts]
      exact Nat.add_le_add ih.1 (reRolled_le _ _)
  | written _ written ih =>
    have stays := written_stays written
    rw [reRolled_of_stays stays, stays.attempts]
    exact ih

end SuiteCloud.Hosting.Setup
