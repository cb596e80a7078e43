/-
**Proof of control lapses with a disabled domain.**

`validate` clears `is_verified` when a domain is disabled, and leaves the flags of its rows. A
verification that no resolver answers keeps those flags, and they verify the domain again.

The state is watched: beside the stored domains stands, for each one that has been disabled, what the
lookups have found since it last was (`Since`). This is no state of the program.

### What is proved

* `watch_controlled` — what one step must do to keep the invariant, whatever it does to the rows.
* `enabling_needs_proof` — **a domain that was disabled and is live has been proved since**: at some
  moment since it was last disabled, every SPF and DMARC row and a DKIM row had been found by a lookup
  since. This is over every run in which no disabled domain is verified, and no verification of an
  unverified one keeps a flag from before it was disabled for want of an answer.
* `live_without_proof` — a domain that is live again though no lookup has found anything.
-/

import SuiteCloud.Mail.Domain.Outage

namespace SuiteCloud.Mail.Domain

open SuiteCloud.Library

variable {Name Zone : Type} [DecidableEq Name] {build : Zone → Bool → List Row}

/-! ### The watch -/

/-- What a row is looked up by. -/
abbrev Key := String × String × String

/-- **What the lookups have found since the domain was last disabled**, and whether the records of some
moment were all among it. -/
structure Since where
  found : List Key
  proved : Bool
  deriving DecidableEq

/-- The stored domains, watched; `none` for a domain that has not been disabled. -/
structure Watched (Name Zone : Type) where
  state : State Name Zone
  since : Name → Option Since

/-- Nothing is recorded yet. -/
def Watched.initial {Name : Type} (onCluster : Name → Option ClusterDomain) : Watched Name Zone :=
  ⟨State.initial false onCluster, fun _ => none⟩

/-- The rows a verification found. -/
def foundKeys (answers : ℕ → Option Bool) (rows : List Row) : List Key :=
  (rows.zipIdx.filter fun entry => answers entry.2 = some true).map fun entry => entry.1.key

/-- The rows would verify the domain on these findings alone. -/
def provenBy (found : List Key) (rows : List Row) : Bool :=
  computeIsVerified (rows.map fun row => { row with isVerified := decide (row.key ∈ found) })

/-- The verification that the operation runs. -/
def verifies (s : State Name Zone) : Action Name Zone → Option (Name × (ℕ → Option Bool))
  | .verify name answers => some (name, answers)
  | .recheck name answers =>
      if (s.domains name).any fun doc => doc.verificationSkipped then some (name, answers) else none
  | _ => none

/-- What the operation's verification finds of this domain. -/
def findings (s : State Name Zone) (action : Action Name Zone) (name : Name) : List Key :=
  match verifies s action, s.domains name with
  | some (other, answers), some doc => if other = name then foundKeys answers doc.rows else []
  | _, _ => []

/-- The watch over one domain: it starts again whenever the domain is disabled. -/
def watch (before : Option Since) (after : Option (MailDomain Zone)) (findings : List Key) : Option Since :=
  match after with
  | none => none
  | some doc =>
      if doc.enabled = false then some ⟨[], false⟩
      else before.map fun since =>
        ⟨since.found ++ findings, since.proved || provenBy (since.found ++ findings) doc.rows⟩

variable (build) in
/-- One operation, watched. -/
def watchedStep (w : Watched Name Zone) (action : Action Name Zone) : Option (Watched Name Zone) :=
  (step build w.state action).map fun s' =>
    ⟨s', fun name => watch (w.since name) (s'.domains name) (findings w.state action name)⟩

/-! ### The invariant -/

/-- **A disabled domain is unverified, and a live one that was disabled has been proved since.** -/
def Controlled (doc : Option (MailDomain Zone)) (since : Option Since) : Prop :=
  match doc with
  | none => since = none
  | some doc => (doc.enabled = false → doc.isVerified = false ∧ since.isSome = true) ∧
      (doc.isLive = true → ∀ record ∈ since, record.proved = true)

/-- What a step must do: leave a disabled domain unverified, and make one live only if it was, or was
never disabled, or is proved now. -/
theorem watch_controlled {before : Option (MailDomain Zone)} {since : Option Since}
    {doc : MailDomain Zone} {found : List Key} (controlled : Controlled before since)
    (disabled : doc.enabled = false → doc.isVerified = false)
    (live : doc.isLive = true → (∃ stored, before = some stored ∧ stored.isLive = true) ∨ since = none ∨
      ∃ record, since = some record ∧ provenBy (record.found ++ found) doc.rows = true) :
    Controlled (some doc) (watch since (some doc) found) := by
  unfold watch
  simp only
  by_cases off : doc.enabled = false
  · rw [if_pos off]
    refine ⟨fun _ => ⟨disabled off, rfl⟩, fun isLive => ?_⟩
    rw [MailDomain.isLive, off] at isLive
    cases isLive
  · rw [if_neg off]
    refine ⟨fun off' => absurd off' off, fun isLive record member => ?_⟩
    obtain ⟨earlier, known, rfl⟩ := Option.map_eq_some_iff.mp member
    refine (Bool.or_eq_true _ _).mpr ?_
    rcases live isLive with ⟨stored, rfl, wasLive⟩ | never | ⟨proof, known', proven⟩
    · exact Or.inl (controlled.2 wasLive earlier known)
    · rw [never] at known
      cases known
    · obtain rfl := Option.some.inj (known.symm.trans known')
      exact Or.inr proven

theorem watch_controlled_same {stored doc : MailDomain Zone} {since : Option Since} {found : List Key}
    (controlled : Controlled (some stored) since) (enabled : doc.enabled = stored.enabled)
    (isVerified : doc.isVerified = stored.isVerified) :
    Controlled (some doc) (watch since (some doc) found) := by
  refine watch_controlled controlled ?_ ?_
  · intro off
    rw [isVerified]
    exact (controlled.1 (enabled ▸ off)).1
  · intro isLive
    refine Or.inl ⟨stored, rfl, ?_⟩
    rw [MailDomain.isLive, ← enabled, ← isVerified]
    exact isLive

theorem watch_controlled_self {doc : Option (MailDomain Zone)} {since : Option Since} {found : List Key}
    (controlled : Controlled doc since) : Controlled doc (watch since doc found) := by
  cases doc with
  | none => rfl
  | some stored => exact watch_controlled_same controlled rfl rfl

/-! ### The operations -/

/-- The claim's runs: verification is never skipped, and no manager sets a flag by hand. -/
def Unforged (s : State Name Zone) : Action Name Zone → Prop
  | .insert _ doc _ => doc.isVerified = false ∧ doc.rows = []
  | .save name doc => ∀ stored ∈ s.domains name,
      doc.isVerified = stored.isVerified ∧ doc.rows = stored.rows
  | .setSkipped skipped => skipped = false
  | _ => True

/-- No flag of a row that decides verification is kept, for want of an answer, without a finding. -/
def FreshFlags (answers : ℕ → Option Bool) (rows : List Row) (found : List Key) : Prop :=
  ∀ entry ∈ rows.zipIdx, entry.1.category.isAuthentication = true → entry.1.isVerified = true →
    answers entry.2 = none → entry.1.key ∈ found

instance (answers : ℕ → Option Bool) (rows : List Row) (found : List Key) :
    Decidable (FreshFlags answers rows found) :=
  inferInstanceAs (Decidable (∀ entry ∈ rows.zipIdx, _))

/-- **No disabled domain is verified, and no verification of an unverified one keeps a flag from before
it was disabled for want of an answer.** -/
def afresh (w : Watched Name Zone) (action : Action Name Zone) : Prop :=
  ∀ run ∈ verifies w.state action, ∀ doc ∈ w.state.domains run.1, ∀ record ∈ w.since run.1,
    doc.enabled = true ∧ (doc.isVerified = false → FreshFlags run.2 doc.rows record.found)

theorem save_flags {s s' : State Name Zone} {name : Name} {doc : MailDomain Zone} {skipPush : Bool}
    (heard : s.skipped = false) (taken : save build s name doc skipPush = some s') :
    ∃ stored saved, s.domains name = some stored ∧ s'.domains name = some saved ∧
      saved.enabled = doc.enabled ∧ saved.isVerified =
        (if stored.enabled ≠ doc.enabled ∧ doc.enabled = false then false else doc.isVerified) := by
  obtain ⟨stored, here, -, saved, -⟩ := save_cases taken
  refine ⟨stored, _, here, saved, ?_⟩
  rw [heard]
  unfold validate
  rw [(relist_enabled _ _).1, (relist_enabled _ _).2, (vouch_enabled _ _).1, (vouch_enabled _ _).2]
  simp only [lapse]
  split
  · exact ⟨rfl, rfl⟩
  · exact ⟨rfl, rfl⟩

theorem save_controlled {s s' : State Name Zone} {name : Name} {doc : MailDomain Zone} {skipPush : Bool}
    {since : Option Since} {found : List Key} (heard : s.skipped = false)
    (unforged : ∀ stored ∈ s.domains name, doc.isVerified = stored.isVerified)
    (controlled : Controlled (s.domains name) since)
    (taken : save build s name doc skipPush = some s') :
    Controlled (s'.domains name) (watch since (s'.domains name) found) := by
  obtain ⟨stored, saved, here, after, enabled, isVerified⟩ := save_flags heard taken
  rw [after]
  have kept := unforged stored here
  refine watch_controlled controlled ?_ ?_
  · intro off
    rw [isVerified]
    split
    · rfl
    · rename_i stays
      rw [enabled] at off
      have was : stored.enabled = false := by
        by_contra on
        exact stays ⟨fun same => on (same.trans off), off⟩
      rw [here] at controlled
      exact kept.trans (controlled.1 was).1
  · intro isLive
    obtain ⟨on, flagged⟩ := (Bool.and_eq_true _ _).mp isLive
    rw [enabled] at on
    rw [isVerified, if_neg fun lapses => Bool.false_ne_true (lapses.2.symm.trans on), kept] at flagged
    refine Or.inl ⟨stored, here, (Bool.and_eq_true _ _).mpr ⟨?_, flagged⟩⟩
    by_contra off
    rw [here] at controlled
    have unverified := (controlled.1 (Bool.not_eq_true _ ▸ off)).1
    exact Bool.false_ne_true (unverified.symm.trans flagged)

theorem provenBy_iff {found : List Key} {rows : List Row} :
    provenBy found rows = true ↔ Proven (fun row => row.key ∈ found) rows := by
  unfold provenBy
  rw [computeIsVerified_iff]
  constructor
  · intro proven
    obtain ⟨_, spfMember, isSpf⟩ := proven.spf
    obtain ⟨_, dmarcMember, isDmarc⟩ := proven.dmarc
    obtain ⟨_, dkimMember, isDkim, flagged⟩ := proven.dkim
    obtain ⟨spf, there, rfl⟩ := List.mem_map.mp spfMember
    obtain ⟨dmarc, there', rfl⟩ := List.mem_map.mp dmarcMember
    obtain ⟨dkim, there'', rfl⟩ := List.mem_map.mp dkimMember
    refine ⟨⟨spf, there, isSpf⟩, ⟨dmarc, there', isDmarc⟩, ?_, ⟨dkim, there'', isDkim, ?_⟩⟩
    · intro row member category
      exact of_decide_eq_true (proven.mandatory _ (List.mem_map_of_mem member) category)
    · exact of_decide_eq_true flagged
  · rintro ⟨⟨spf, there, isSpf⟩, ⟨dmarc, there', isDmarc⟩, mandatory, ⟨dkim, there'', isDkim, known⟩⟩
    refine ⟨⟨_, List.mem_map_of_mem there, isSpf⟩, ⟨_, List.mem_map_of_mem there', isDmarc⟩, ?_,
      ⟨_, List.mem_map_of_mem there'', isDkim, decide_eq_true known⟩⟩
    intro checked member category
    obtain ⟨row, there, rfl⟩ := List.mem_map.mp member
    exact decide_eq_true (mandatory row there category)

theorem mem_foundKeys {answers : ℕ → Option Bool} {rows : List Row} {i : ℕ} {row : Row}
    (here : rows[i]? = some row) (answered : answers i = some true) : row.key ∈ foundKeys answers rows := by
  refine List.mem_map.mpr ⟨(row, i), List.mem_filter.mpr ⟨?_, decide_eq_true answered⟩, rfl⟩
  exact List.mk_mem_zipIdx_iff_getElem?.mpr here

theorem provenBy_checkRows {answers : ℕ → Option Bool} {rows : List Row} {found : List Key}
    (fresh : FreshFlags answers rows found)
    (computed : computeIsVerified (checkRows answers rows) = true) :
    provenBy (found ++ foundKeys answers rows) (checkRows answers rows) = true := by
  have known : ∀ (i : ℕ) (row : Row), rows[i]? = some row → row.category.isAuthentication = true →
      (row.check (answers i)).isVerified = true →
      (row.check (answers i)).key ∈ found ++ foundKeys answers rows := by
    intro i row here decides flagged
    rw [check_key, List.mem_append]
    rcases check_isVerified.mp flagged with answered | ⟨silent, was⟩
    · exact Or.inr (mem_foundKeys here answered)
    · exact Or.inl (fresh (row, i) (List.mk_mem_zipIdx_iff_getElem?.mpr here) decides was silent)
  have proven := (computeIsVerified_iff _).mp computed
  refine provenBy_iff.mpr ⟨proven.spf, proven.dmarc, ?_, ?_⟩
  · intro checked member category
    have flagged := proven.mandatory checked member category
    obtain ⟨i, row, here, rfl⟩ := mem_checkRows.mp member
    rw [check_category] at category
    exact known i row here (isAuthentication_of_mandatory category) flagged
  · obtain ⟨checked, member, dkim, flagged⟩ := proven.dkim
    obtain ⟨i, row, here, rfl⟩ := mem_checkRows.mp member
    refine ⟨_, member, dkim, known i row here ?_ flagged⟩
    rw [check_category] at dkim
    rw [dkim]; rfl

theorem verify_controlled {s s' : State Name Zone} {name : Name} {answers : ℕ → Option Bool}
    {since : Option Since} {stored : MailDomain Zone} (heard : s.skipped = false)
    (here : s.domains name = some stored)
    (fresh : ∀ record ∈ since, stored.enabled = true ∧
      (stored.isVerified = false → FreshFlags answers stored.rows record.found))
    (controlled : Controlled (s.domains name) since)
    (taken : verifyDnsRecords build s name answers = some s') :
    Controlled (s'.domains name)
      (watch since (s'.domains name) (foundKeys answers stored.rows)) := by
  have cluster : ∃ live, s.onCluster name = some live := by
    unfold verifyDnsRecords at taken
    rw [here] at taken
    cases known : s.onCluster name with
    | none => rw [known] at taken; cases taken
    | some live => exact ⟨live, rfl⟩
  obtain ⟨live, cluster⟩ := cluster
  obtain ⟨saved, after, enabled, rows, isVerified, -⟩ := verify_leaves here cluster taken
  rw [heard] at isVerified
  rw [after]
  refine watch_controlled controlled ?_ ?_
  · intro off
    rw [here] at controlled
    obtain ⟨record, known⟩ := Option.isSome_iff_exists.mp (controlled.1 (enabled ▸ off)).2
    rw [enabled, (fresh record known).1] at off
    cases off
  · intro isLive
    obtain ⟨on, flagged⟩ := (Bool.and_eq_true _ _).mp isLive
    cases known : since with
    | none => exact Or.inr (Or.inl rfl)
    | some record =>
      cases was : stored.isVerified with
      | true =>
        refine Or.inl ⟨stored, here, (Bool.and_eq_true _ _).mpr ⟨?_, was⟩⟩
        rw [← enabled]
        exact on
      | false =>
        refine Or.inr (Or.inr ⟨record, rfl, ?_⟩)
        rw [rows]
        rw [isVerified] at flagged
        exact provenBy_checkRows ((fresh record known).2 was) flagged

theorem frame_verify {s s' : State Name Zone} {name : Name} {answers : ℕ → Option Bool}
    (taken : verifyDnsRecords build s name answers = some s') : Frame s s' name := by
  unfold verifyDnsRecords at taken
  split at taken
  case h_2 => cases taken
  case h_1 stored live here cluster =>
    simp only at taken
    split at taken
    · exact (frame_push s name _).trans (frame_save taken)
    · exact frame_save taken

theorem refresh_flags {s s' : State Name Zone} {name : Name} {zone : Zone} (heard : s.skipped = false)
    (taken : refreshDnsRecords build s name zone = some s') :
    ∃ stored saved, s.domains name = some stored ∧ s'.domains name = some saved ∧
      saved.enabled = stored.enabled ∧ saved.isVerified = stored.isVerified := by
  unfold refreshDnsRecords at taken
  cases here : s.domains name with
  | none => rw [here] at taken; cases taken
  | some stored =>
    simp only [here] at taken
    obtain ⟨before, saved, found, after, enabled, isVerified⟩ := save_flags heard taken
    obtain rfl := Option.some.inj (here.symm.trans found)
    refine ⟨stored, saved, rfl, after, enabled, isVerified.trans ?_⟩
    exact if_neg fun lapses => lapses.1 rfl

theorem new_controlled {since : Option Since} {doc : MailDomain Zone} {found : List Key}
    (controlled : Controlled (none : Option (MailDomain Zone)) since)
    (disabled : doc.enabled = false → doc.isVerified = false) :
    Controlled (some doc) (watch since (some doc) found) :=
  watch_controlled controlled disabled fun _ => Or.inr (Or.inl controlled)

theorem store_self (s : State Name Zone) (name : Name) (doc : MailDomain Zone) :
    (s.store name doc).domains name = some doc :=
  Function.update_self _ _ _

theorem insert_controlled {s s' : State Name Zone} {name : Name} {doc : MailDomain Zone} {zone : Zone}
    {since : Option Since} {found : List Key} (heard : s.skipped = false)
    (unverified : doc.isVerified = false) (controlled : Controlled (s.domains name) since)
    (taken : insert build s name doc zone = some s') :
    Frame s s' name ∧ Controlled (s'.domains name) (watch since (s'.domains name) found) := by
  obtain ⟨fresh, frame, refreshed⟩ := insert_eq_some taken
  have quiet : ((s.store name (validate build s.skipped none doc)).push name
      (validate build s.skipped none doc).stalwartPatch).skipped = false := heard
  obtain ⟨stored, saved, here, after, -, isVerified⟩ := refresh_flags quiet refreshed
  refine ⟨frame.trans (frame_refresh refreshed), ?_⟩
  rw [after]
  rw [fresh] at controlled
  refine new_controlled controlled fun _ => ?_
  obtain rfl := Option.some.inj ((store_self s name (validate build s.skipped none doc)).symm.trans here)
  rw [isVerified, (validate_new _ _).2, heard]
  exact unverified

theorem adopt_controlled {s s' : State Name Zone} {name : Name} {doc : MailDomain Zone} {zone : Zone}
    {since : Option Since} {found : List Key} (heard : s.skipped = false)
    (controlled : Controlled (s.domains name) since) (taken : adopt build s name doc zone = some s') :
    Frame s s' name ∧ Controlled (s'.domains name) (watch since (s'.domains name) found) := by
  obtain ⟨live, fresh, -, refreshed⟩ := adopt_eq_some taken
  have quiet : (s.store name (validate build s.skipped none (adopted doc live))).skipped = false := heard
  obtain ⟨stored, saved, here, after, enabled, isVerified⟩ := refresh_flags quiet refreshed
  refine ⟨(frame_store s name _).trans (frame_refresh refreshed), ?_⟩
  rw [after]
  rw [fresh] at controlled
  refine new_controlled controlled fun off => ?_
  obtain rfl := Option.some.inj ((store_self s name _).symm.trans here)
  rw [enabled, (validate_new _ _).1] at off
  rw [isVerified, (validate_new _ _).2, heard]
  exact off

theorem recheck_controlled {s s' : State Name Zone} {name : Name} {answers : ℕ → Option Bool}
    {since : Option Since} {stored : MailDomain Zone} (heard : s.skipped = false)
    (here : s.domains name = some stored) (marked : stored.verificationSkipped = true)
    (fresh : ∀ record ∈ since, stored.enabled = true ∧
      (stored.isVerified = false → FreshFlags answers stored.rows record.found))
    (controlled : Controlled (s.domains name) since)
    (taken : recheckVouched build s name answers = some s') :
    Frame s s' name ∧
      Controlled (s'.domains name) (watch since (s'.domains name) (foundKeys answers stored.rows)) := by
  unfold recheckVouched at taken
  simp only [here, marked, if_true] at taken
  obtain ⟨middle, saves, verifies⟩ := Option.bind_eq_some_iff.mp taken
  refine ⟨(frame_save saves).trans (frame_verify verifies), ?_⟩
  obtain ⟨before, found, -, after, -⟩ := save_cases saves
  obtain rfl := Option.some.inj (here.symm.trans found)
  obtain ⟨enabled, isVerified⟩ : (validate build s.skipped (some stored) { stored with
        verificationSkipped := false, skipScheduledVerification := false }).enabled = stored.enabled ∧
      (validate build s.skipped (some stored) { stored with
        verificationSkipped := false, skipScheduledVerification := false }).isVerified =
        if s.skipped then stored.enabled else stored.isVerified :=
    validate_enabled fun other equal => by rw [← Option.some.inj equal]
  replace isVerified := isVerified.trans (if_neg (Bool.eq_false_iff.mp heard))
  have rows : (validate build s.skipped (some stored) { stored with
      verificationSkipped := false, skipScheduledVerification := false }).rows = stored.rows :=
    validate_rows rfl
  have quiet : middle.skipped = false := (frame_save saves).skipped.trans heard
  have between : Controlled (middle.domains name) since := by
    rw [here] at controlled
    rw [after]
    refine ⟨fun off => ?_, fun isLive => controlled.2 ?_⟩
    · rw [isVerified]
      exact controlled.1 (enabled ▸ off)
    · rw [MailDomain.isLive, enabled, isVerified] at isLive
      exact isLive
  rw [← rows]
  refine verify_controlled quiet after (fun record known => ?_) between verifies
  rw [enabled, isVerified, rows]
  exact fresh record known

/-! ### Every run -/

/-- The setting is off, and every domain is controlled. -/
structure AllControlled (w : Watched Name Zone) : Prop where
  heard : w.state.skipped = false
  controlled : ∀ name, Controlled (w.state.domains name) (w.since name)

theorem AllControlled.of_frame {w : Watched Name Zone} {s' : State Name Zone} {name : Name}
    {found : Name → List Key} (all : AllControlled w) (frame : Frame w.state s' name)
    (here : Controlled (s'.domains name) (watch (w.since name) (s'.domains name) (found name))) :
    AllControlled ⟨s', fun name => watch (w.since name) (s'.domains name) (found name)⟩ := by
  refine ⟨frame.skipped.trans all.heard, fun other => ?_⟩
  by_cases same : other = name
  · subst same
    exact here
  · simp only
    rw [frame.domains other same]
    exact watch_controlled_self (all.controlled other)

theorem findings_eq {s : State Name Zone} {action : Action Name Zone} {name : Name}
    {answers : ℕ → Option Bool} {stored : MailDomain Zone}
    (runs : verifies s action = some (name, answers)) (here : s.domains name = some stored) :
    findings s action name = foundKeys answers stored.rows := by
  unfold findings
  rw [runs, here]
  exact if_pos rfl

theorem controlled_step {w w' : Watched Name Zone} {action : Action Name Zone} (all : AllControlled w)
    (unforged : Unforged w.state action) (fresh : afresh w action)
    (done : watchedStep build w action = some w') : AllControlled w' := by
  obtain ⟨s', taken, rfl⟩ := Option.map_eq_some_iff.mp done
  cases action with
  | insert name doc zone =>
    obtain ⟨frame, here⟩ := insert_controlled all.heard unforged.1 (all.controlled name) taken
    exact all.of_frame frame here
  | adopt name doc zone =>
    obtain ⟨frame, here⟩ := adopt_controlled all.heard (all.controlled name) taken
    exact all.of_frame frame here
  | save name doc =>
    refine all.of_frame (frame_save taken) ?_
    exact save_controlled all.heard (fun stored here => (unforged stored here).1) (all.controlled name) taken
  | refresh name zone =>
    refine all.of_frame (frame_refresh taken) ?_
    obtain ⟨stored, saved, here, after, enabled, isVerified⟩ := refresh_flags all.heard taken
    have before := all.controlled name
    rw [here] at before
    rw [after]
    exact watch_controlled_same before enabled isVerified
  | verify name answers =>
    refine all.of_frame (frame_verify taken) ?_
    cases here : w.state.domains name with
    | none =>
      have gone : verifyDnsRecords build w.state name answers = some s' := taken
      unfold verifyDnsRecords at gone
      rw [here] at gone
      cases gone
    | some stored =>
      rw [findings_eq rfl here]
      exact verify_controlled all.heard here (fun record known => fresh _ rfl stored here record known)
        (all.controlled name) taken
  | recheck name answers =>
    cases here : w.state.domains name with
    | none =>
      have gone : recheckVouched build w.state name answers = some s' := taken
      unfold recheckVouched at gone
      rw [here] at gone
      cases gone
    | some stored =>
      by_cases marked : stored.verificationSkipped = true
      · have runs : verifies w.state (.recheck name answers) = some (name, answers) := by
          simp [verifies, here, marked]
        obtain ⟨frame, after⟩ := recheck_controlled all.heard here marked
          (fun record known => fresh _ runs stored here record known) (all.controlled name) taken
        rw [← findings_eq runs here] at after
        exact all.of_frame frame after
      · have unchanged : s' = w.state := by
          have idle : recheckVouched build w.state name answers = some s' := taken
          unfold recheckVouched at idle
          simp only [here, if_neg marked] at idle
          exact (Option.some.inj idle).symm
        subst unchanged
        exact ⟨all.heard, fun other => watch_controlled_self (all.controlled other)⟩
  | delete name =>
    obtain rfl := Option.some.inj taken
    refine ⟨all.heard, fun other => ?_⟩
    by_cases same : other = name
    · subst same
      simp only [Function.update_self]
      rfl
    · simp only [Function.update_of_ne same]
      exact watch_controlled_self (all.controlled other)
  | setSkipped skipped =>
    obtain rfl := Option.some.inj taken
    exact ⟨unforged, fun name => watch_controlled_self (all.controlled name)⟩

/-- The two guards of a run. -/
def controlledRun (w : Watched Name Zone) (action : Action Name Zone) : Prop :=
  Unforged w.state action ∧ afresh w action

/-- **Enabling a domain again needs fresh proof of control**: in every run without a skipped
verification or a forged flag, in which no disabled domain is verified and no verification of an
unverified one keeps a flag from before it was disabled, a live domain that has been disabled was proved
since it last was. -/
theorem enabling_needs_proof (build : Zone → Bool → List Row) (onCluster : Name → Option ClusterDomain)
    (w : Watched Name Zone)
    (reached : Reaches (watchedStep build) controlledRun (Watched.initial onCluster) w) :
    ∀ name doc, w.state.domains name = some doc → doc.enabled = true → doc.isVerified = true →
      ∀ record, w.since name = some record → record.proved = true := by
  have initially : AllControlled (Watched.initial onCluster : Watched Name Zone) := ⟨rfl, fun _ => rfl⟩
  have all : AllControlled w := by
    refine reached.invariant AllControlled initially ?_
    intro here there action all follows taken
    exact controlled_step all follows.1 follows.2 taken
  intro name doc here enabled verified record known
  have controlled := all.controlled name
  rw [here] at controlled
  exact controlled.2 ((Bool.and_eq_true _ _).mpr ⟨enabled, verified⟩) record known

/-! ### A domain that is disabled and enabled again -/

/-- The domain as a save stores it, disabled or enabled, with the flags it has. -/
def edited (enabled isVerified : Bool) (rows : List Row) : MailDomain Unit :=
  { unverifiedDomain with enabled := enabled, isVerified := isVerified, rows := rows }

/-- The rows once every lookup has found them. -/
def foundRows : List Row := checkRows (fun _ => some true) zoneRows

/-- The domain is verified, disabled and enabled. -/
def enabledAgain : List (Action ℕ Unit) :=
  [.insert 0 unverifiedDomain (), .verify 0 fun _ => some true, .save 0 (edited false true foundRows),
    .save 0 (edited true false foundRows)]

instance (s : State ℕ Unit) (action : Action ℕ Unit) : Decidable (Unforged s action) :=
  match action with
  | .insert _ _ _ => inferInstanceAs (Decidable (_ ∧ _))
  | .save name doc => inferInstanceAs (Decidable (∀ stored ∈ s.domains name,
      doc.isVerified = stored.isVerified ∧ doc.rows = stored.rows))
  | .setSkipped skipped => inferInstanceAs (Decidable (skipped = false))
  | .adopt _ _ _ => isTrue trivial
  | .refresh _ _ => isTrue trivial
  | .verify _ _ => isTrue trivial
  | .recheck _ _ => isTrue trivial
  | .delete _ => isTrue trivial

instance (w : Watched ℕ Unit) (action : Action ℕ Unit) : Decidable (afresh w action) :=
  inferInstanceAs (Decidable (∀ run ∈ verifies w.state action, ∀ doc ∈ w.state.domains run.1,
    ∀ record ∈ w.since run.1, _ ∧ (_ → FreshFlags run.2 doc.rows record.found)))

instance (w : Watched ℕ Unit) (action : Action ℕ Unit) : Decidable (controlledRun w action) :=
  inferInstanceAs (Decidable (_ ∧ _))

/-- The lookups find the records again: the domain is live, and proved. -/
theorem enabling_needs_proof_found :
    ∃ w : Watched ℕ Unit, Reaches (watchedStep fun _ _ => zoneRows) controlledRun
        (Watched.initial fun _ => none) w ∧
      (∃ doc, w.state.domains 0 = some doc ∧ doc.isLive = true) ∧
      ∃ record, w.since 0 = some record ∧ record.proved = true := by
  have seen : (run (watchedStep fun _ _ => zoneRows) (Watched.initial fun _ => none)
      (enabledAgain ++ [Action.verify 0 fun _ => some true])).map
      (fun w : Watched ℕ Unit => ((w.state.domains 0).map fun doc => (doc.enabled, doc.isVerified),
        (w.since 0).isSome)) = some (some (true, true), true) := by decide
  obtain ⟨w, ends, seen⟩ := Option.map_eq_some_iff.mp seen
  obtain ⟨flags, known⟩ := Prod.mk.inj seen
  obtain ⟨doc, here, flags⟩ := Option.map_eq_some_iff.mp flags
  obtain ⟨enabled, verified⟩ := Prod.mk.inj flags
  obtain ⟨record, known⟩ := Option.isSome_iff_exists.mp known
  have meets : RunMeets (watchedStep fun _ _ => zoneRows) controlledRun (Watched.initial fun _ => none)
      (enabledAgain ++ [Action.verify 0 fun _ => some true]) := by decide
  have reached := reaches_of_run meets ends
  exact ⟨w, reached, ⟨doc, here, (Bool.and_eq_true _ _).mpr ⟨enabled, verified⟩⟩, record, known,
    enabling_needs_proof _ _ w reached 0 doc here enabled verified record known⟩

/-- **A domain is live again though no lookup has found anything** since it was disabled: no resolver
answers, and its rows are still flagged. -/
theorem live_without_proof :
    ¬ ∀ (build : Unit → Bool → List Row) (onCluster : ℕ → Option ClusterDomain) (w : Watched ℕ Unit),
      Reaches (watchedStep build) (fun w action => Unforged w.state action) (Watched.initial onCluster) w →
      ∀ name doc, w.state.domains name = some doc → doc.enabled = true → doc.isVerified = true →
        ∀ record, w.since name = some record → record.proved = true := by
  intro always
  have seen : (run (watchedStep fun _ _ => zoneRows) (Watched.initial fun _ => none)
      (enabledAgain ++ [Action.verify 0 fun _ => none])).map
      (fun w : Watched ℕ Unit => ((w.state.domains 0).map fun doc => (doc.enabled, doc.isVerified),
        w.since 0)) = some (some (true, true), some ⟨[], false⟩) := by decide
  obtain ⟨w, ends, seen⟩ := Option.map_eq_some_iff.mp seen
  obtain ⟨flags, known⟩ := Prod.mk.inj seen
  obtain ⟨doc, here, flags⟩ := Option.map_eq_some_iff.mp flags
  obtain ⟨enabled, verified⟩ := Prod.mk.inj flags
  have meets : RunMeets (watchedStep fun _ _ => zoneRows) (fun w action => Unforged w.state action)
      (Watched.initial fun _ => none) (enabledAgain ++ [Action.verify 0 fun _ => none]) := by decide
  have proved := always _ _ w (reaches_of_run meets ends) 0 doc here enabled verified _ known
  cases proved

end SuiteCloud.Mail.Domain
