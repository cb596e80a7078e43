/-
**Verification and resolver trouble.**

A lookup that no resolver answers leaves the flag its row has. Whether the domain stays verified is then
up to the flags, which other runs have set, or none: the rows of an adopted domain and those a refresh
brings start unverified.

### What is proved

* `computeIsVerified_iff` — what the flags must say.
* `verify_leaves` — what a verification leaves of the document and of the cluster's domain.
* `outage_keeps_live_iff` — **no outage takes a live domain down exactly when its stored flags amount to
  verification** (or the setting vouches for it).
* `adopted_domain_down` — an adopted domain that an outage takes offline.
-/

import SuiteCloud.Mail.Domain.Liveness

namespace SuiteCloud.Mail.Domain

open SuiteCloud.Library

variable {Name Zone : Type} [DecidableEq Name] {build : Zone → Bool → List Row}

/-! ### The rows -/

/-- SPF and DMARC rows are there and are all `ok`, and one DKIM row is. -/
structure Proven (ok : Row → Prop) (rows : List Row) : Prop where
  spf : ∃ row ∈ rows, row.category = .spf
  dmarc : ∃ row ∈ rows, row.category = .dmarc
  mandatory : ∀ row ∈ rows, row.category = .spf ∨ row.category = .dmarc → ok row
  dkim : ∃ row ∈ rows, row.category = .dkim ∧ ok row

theorem isAuthentication_of_mandatory {category : Category} (mandatory : category = .spf ∨ category = .dmarc) :
    category.isAuthentication = true := by
  rcases mandatory with rfl | rfl
  · rfl
  · rfl

theorem mem_listed {category : Category} (decides : category.isAuthentication = true) {rows : List Row}
    {row : Row} : row ∈ (rows.filter (·.category.isAuthentication)).filter (·.category = category) ↔
      row ∈ rows ∧ row.category = category := by
  rw [List.mem_filter, List.mem_filter, decide_eq_true_iff]
  constructor
  · rintro ⟨⟨there, -⟩, same⟩
    exact ⟨there, same⟩
  · rintro ⟨there, rfl⟩
    exact ⟨⟨there, decides⟩, rfl⟩

theorem all_listed_iff {category : Category} (decides : category.isAuthentication = true)
    (rows : List Row) :
    (!((rows.filter (·.category.isAuthentication)).filter (·.category = category)).isEmpty &&
      ((rows.filter (·.category.isAuthentication)).filter (·.category = category)).all (·.isVerified))
        = true ↔
      (∃ row ∈ rows, row.category = category) ∧
        ∀ row ∈ rows, row.category = category → row.isVerified = true := by
  rw [Bool.and_eq_true, Bool.not_eq_true', List.isEmpty_eq_false_iff_exists_mem, List.all_eq_true]
  simp only [mem_listed decides]
  exact and_congr_right fun _ => forall_congr' fun _ => and_imp

/-- **What the flags must say for the domain to be verified.** -/
theorem computeIsVerified_iff (rows : List Row) :
    computeIsVerified rows = true ↔ Proven (fun row => row.isVerified = true) rows := by
  unfold computeIsVerified
  rw [Bool.and_eq_true, List.all_cons, List.all_cons, List.all_nil, Bool.and_true, Bool.and_eq_true,
    all_listed_iff rfl, all_listed_iff rfl, List.any_eq_true]
  simp only [mem_listed (rfl : Category.dkim.isAuthentication = true), and_assoc]
  constructor
  · rintro ⟨spf, allSpf, dmarc, allDmarc, dkim⟩
    refine ⟨spf, dmarc, fun row there category => ?_, dkim⟩
    exact category.elim (allSpf row there) (allDmarc row there)
  · intro proven
    exact ⟨proven.spf, fun row there spf => proven.mandatory row there (Or.inl spf), proven.dmarc,
      fun row there dmarc => proven.mandatory row there (Or.inr dmarc), proven.dkim⟩

theorem check_category (row : Row) (answer : Option Bool) : (row.check answer).category = row.category := by
  cases answer with
  | none => rfl
  | some verified => rfl

theorem check_key (row : Row) (answer : Option Bool) : (row.check answer).key = row.key := by
  cases answer with
  | none => rfl
  | some verified => rfl

theorem check_isVerified {row : Row} {answer : Option Bool} :
    (row.check answer).isVerified = true ↔ answer = some true ∨ (answer = none ∧ row.isVerified = true) := by
  cases answer with
  | none => simp [Row.check]
  | some verified => simp [Row.check]

theorem mem_checkRows {answers : ℕ → Option Bool} {rows : List Row} {checked : Row} :
    checked ∈ checkRows answers rows ↔
      ∃ (i : ℕ) (row : Row), rows[i]? = some row ∧ checked = row.check (answers i) := by
  rw [checkRows, List.mem_mapIdx]
  constructor
  · rintro ⟨i, bound, rfl⟩
    exact ⟨i, rows[i], List.getElem?_eq_getElem bound, rfl⟩
  · rintro ⟨i, row, here, rfl⟩
    obtain ⟨bound, rfl⟩ := List.getElem?_eq_some_iff.mp here
    exact ⟨i, bound, rfl⟩

/-! ### What a verification leaves -/

theorem validate_rows {skipped : Bool} {stored doc : MailDomain Zone}
    (same : stored.publishClientDiscoveryRecords = doc.publishClientDiscoveryRecords) :
    (validate build skipped (some stored) doc).rows = doc.rows := by
  have lapsed : (lapse (some stored) doc).rows = doc.rows ∧
      (lapse (some stored) doc).publishClientDiscoveryRecords = doc.publishClientDiscoveryRecords := by
    simp only [lapse]
    split
    · exact ⟨rfl, rfl⟩
    · exact ⟨rfl, rfl⟩
  have vouched : (vouch skipped (lapse (some stored) doc)).rows = doc.rows ∧
      (vouch skipped (lapse (some stored) doc)).publishClientDiscoveryRecords =
        doc.publishClientDiscoveryRecords := by
    unfold vouch
    split
    · exact lapsed
    · exact lapsed
  unfold validate relist
  simp only
  rw [if_neg (not_not.mpr (same.trans vouched.2.symm)), vouched.1]

theorem verify_leaves {s s' : State Name Zone} {name : Name} {answers : ℕ → Option Bool}
    {stored : MailDomain Zone} {live : ClusterDomain} (here : s.domains name = some stored)
    (cluster : s.onCluster name = some live)
    (taken : verifyDnsRecords build s name answers = some s') :
    ∃ saved, s'.domains name = some saved ∧ saved.enabled = stored.enabled ∧
      saved.rows = checkRows answers stored.rows ∧
      saved.isVerified = (if s.skipped then stored.enabled else
        computeIsVerified (checkRows answers stored.rows)) ∧
      (stored.isLive = (verified s.skipped answers stored).isLive → s'.onCluster name = some live) := by
  unfold verifyDnsRecords at taken
  rw [here, cluster] at taken
  simp only at taken
  have saves : ∃ pushed : State Name Zone, pushed.skipped = s.skipped ∧
      pushed.domains name = some stored ∧
      (stored.isLive = (verified s.skipped answers stored).isLive → pushed.onCluster name = some live) ∧
      save build pushed name (verified s.skipped answers stored) true = some s' := by
    by_cases changes : stored.isLive ≠ (verified s.skipped answers stored).isLive
    · rw [if_pos changes] at taken
      exact ⟨s.push name _, rfl, here, fun same => absurd same changes, taken⟩
    · rw [if_neg changes] at taken
      exact ⟨s, rfl, here, fun _ => cluster, taken⟩
  obtain ⟨pushed, skipped, stays, onCluster, saved⟩ := saves
  unfold save at saved
  rw [stays] at saved
  simp only [Bool.true_eq_false, false_and, if_false, Option.some.injEq] at saved
  subst saved
  have kept : ∀ other, some stored = some other →
      other.enabled = (verified s.skipped answers stored).enabled := by
    intro other equal
    rw [← Option.some.inj equal]
    rfl
  obtain ⟨enabled, isVerified⟩ :
      (validate build pushed.skipped (some stored) (verified s.skipped answers stored)).enabled =
        (verified s.skipped answers stored).enabled ∧
      (validate build pushed.skipped (some stored) (verified s.skipped answers stored)).isVerified =
        if pushed.skipped then (verified s.skipped answers stored).enabled else
          (verified s.skipped answers stored).isVerified := validate_enabled kept
  refine ⟨_, Function.update_self _ _ _, enabled, validate_rows rfl, ?_, onCluster⟩
  rw [isVerified, skipped]
  cases s.skipped with
  | true => rfl
  | false => exact Bool.false_or _

/-! ### Outages -/

/-- A lookup of an SPF, DMARC or DKIM row answered that the record is not there. -/
def AnsweredFalse (answers : ℕ → Option Bool) (rows : List Row) : Prop :=
  ∃ (i : ℕ) (row : Row), rows[i]? = some row ∧ row.category.isAuthentication = true ∧
    answers i = some false

/-- No row's lookup was answered. -/
def AllInconclusive (answers : ℕ → Option Bool) (rows : List Row) : Prop :=
  ∀ (i : ℕ) (row : Row), rows[i]? = some row → answers i = none

/-- **Only an answer takes the domain down**, and a run without answers leaves it as it is. -/
structure KeptThrough (s s' : State Name Zone) (name : Name) (answers : ℕ → Option Bool)
    (stored : MailDomain Zone) : Prop where
  down : ∀ doc, s'.domains name = some doc → doc.isLive = false → AnsweredFalse answers stored.rows
  outage : AllInconclusive answers stored.rows →
    (∀ doc, s'.domains name = some doc → doc.isVerified = stored.isVerified) ∧
      s'.onCluster name = s.onCluster name

theorem checkRows_inconclusive {answers : ℕ → Option Bool} {rows : List Row}
    (inconclusive : AllInconclusive answers rows) : checkRows answers rows = rows := by
  refine List.ext_getElem? fun i => ?_
  rw [checkRows, List.getElem?_mapIdx]
  cases here : rows[i]? with
  | none => rfl
  | some row => rw [Option.map_some, inconclusive i row here]; rfl

theorem checkRows_proven {answers : ℕ → Option Bool} {rows : List Row}
    (proven : Proven (fun row => row.isVerified = true) rows) (unanswered : ¬ AnsweredFalse answers rows) :
    Proven (fun row => row.isVerified = true) (checkRows answers rows) := by
  have flagged : ∀ (i : ℕ) (row : Row), rows[i]? = some row → row.category.isAuthentication = true →
      row.isVerified = true → (row.check (answers i)).isVerified = true := by
    intro i row here decides was
    refine check_isVerified.mpr ?_
    cases answer : answers i with
    | none => exact Or.inr ⟨rfl, was⟩
    | some verified =>
      cases verified with
      | true => exact Or.inl rfl
      | false => exact absurd ⟨i, row, here, decides, answer⟩ unanswered
  have stays {category : Category} (there : ∃ row ∈ rows, row.category = category) :
      ∃ row ∈ checkRows answers rows, row.category = category := by
    obtain ⟨row, member, same⟩ := there
    obtain ⟨i, here⟩ := List.mem_iff_getElem?.mp member
    exact ⟨_, mem_checkRows.mpr ⟨i, row, here, rfl⟩, (check_category _ _).trans same⟩
  refine ⟨stays proven.spf, stays proven.dmarc, ?_, ?_⟩
  · intro checked member category
    obtain ⟨i, row, here, rfl⟩ := mem_checkRows.mp member
    rw [check_category] at category
    exact flagged i row here (isAuthentication_of_mandatory category)
      (proven.mandatory row (List.mem_of_getElem? here) category)
  · obtain ⟨row, member, same, was⟩ := proven.dkim
    obtain ⟨i, here⟩ := List.mem_iff_getElem?.mp member
    refine ⟨_, mem_checkRows.mpr ⟨i, row, here, rfl⟩, (check_category _ _).trans same, ?_⟩
    exact flagged i row here (by rw [same]; rfl) was

section Verify

variable {s : State Name Zone} {name : Name} {stored : MailDomain Zone} {live : ClusterDomain}
  (here : s.domains name = some stored) (cluster : s.onCluster name = some live)
include here cluster

variable (build) in
theorem verify_returns (answers : ℕ → Option Bool) :
    ∃ s', verifyDnsRecords build s name answers = some s' := by
  unfold verifyDnsRecords
  rw [here, cluster]
  simp only
  split
  · exact ⟨_, by unfold save; rw [show (s.push name _).domains name = some stored from here]⟩
  · exact ⟨_, by unfold save; rw [here]⟩

theorem keptThrough_of_flags (isLive : stored.isLive = true)
    (flags : s.skipped = true ∨ computeIsVerified stored.rows = true) {answers : ℕ → Option Bool}
    {s' : State Name Zone} (taken : verifyDnsRecords build s name answers = some s') :
    KeptThrough s s' name answers stored := by
  obtain ⟨enabled, wasVerified⟩ : stored.enabled = true ∧ stored.isVerified = true :=
    (Bool.and_eq_true _ _).mp isLive
  obtain ⟨saved, after, sameEnabled, -, isVerified, unpushed⟩ := verify_leaves here cluster taken
  have verifies (unanswered : ¬ AnsweredFalse answers stored.rows) : saved.isVerified = true := by
    rw [isVerified]
    split
    · exact enabled
    · rename_i heard
      have proven := (computeIsVerified_iff _).mp (flags.resolve_left heard)
      exact (computeIsVerified_iff _).mpr (checkRows_proven proven unanswered)
  refine ⟨fun doc found down => ?_, fun inconclusive => ?_⟩
  · obtain rfl := Option.some.inj (after.symm.trans found)
    by_contra unanswered
    rw [MailDomain.isLive, sameEnabled, enabled, verifies unanswered] at down
    cases down
  · have unanswered : ¬ AnsweredFalse answers stored.rows := by
      rintro ⟨i, row, there, -, answered⟩
      rw [inconclusive i row there] at answered
      cases answered
    refine ⟨fun doc found => ?_, ?_⟩
    · obtain rfl := Option.some.inj (after.symm.trans found)
      rw [verifies unanswered, wasVerified]
    · rw [cluster]
      refine unpushed ?_
      rw [isLive, MailDomain.isLive, verified, enabled, checkRows_inconclusive inconclusive]
      refine ((Bool.true_and _).trans ?_).symm
      exact (Bool.or_eq_true _ _).mpr flags

theorem outage_takes_down (heard : s.skipped = false) (unflagged : computeIsVerified stored.rows = false) :
    ∃ s', verifyDnsRecords build s name (fun _ => none) = some s' ∧
      ¬ KeptThrough s s' name (fun _ => none) stored := by
  obtain ⟨s', taken⟩ := verify_returns build here cluster fun _ => none
  obtain ⟨saved, after, -, -, isVerified, -⟩ := verify_leaves here cluster taken
  have silent : AllInconclusive (fun _ => none) stored.rows := fun _ _ _ => rfl
  rw [heard, checkRows_inconclusive silent, unflagged] at isVerified
  have down : saved.isLive = false := by
    rw [MailDomain.isLive, isVerified]
    exact Bool.and_false _
  refine ⟨s', taken, fun kept => ?_⟩
  obtain ⟨i, row, there, -, answered⟩ := kept.down saved after down
  cases answered

end Verify

/-! ### A domain with one row of each kind -/

/-- What the zone of the domain lists. -/
def zoneRows : List Row :=
  [⟨"TXT", "@", "v=spf1 include:spf.mail.eu.io -all", .spf, false⟩,
    ⟨"TXT", "s1._domainkey", "v=DKIM1; p=1", .dkim, false⟩,
    ⟨"TXT", "_dmarc", "v=DMARC1; p=reject", .dmarc, false⟩]

end SuiteCloud.Mail.Domain
