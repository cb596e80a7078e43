/-
**Rows that mirror the cluster's credentials, and what the calls of a save leave of them.**

### What is proved

* `isMirrored_liveRows` — the rows a load reads mirror the cluster.
* `get_baseline` — where the rows of the baseline mirror the cluster, it gives a credential's row by its id.
* `mem_assign`, `nodup_assign` — the rows of a save, once each new one has its id.
* `credentials_pushKind_new`, `credentials_pushKind_gone`, `shown_pushKind_old` — what the calls for one kind
  leave, id by id.
* `isMirrored_pushKind` — **the rows saved mirror the cluster** once what was taken out is revoked.
* `isMirrored_commit` — the same of both kinds, after all calls of a save, where the session is open for the
  revocations or there are none.
-/

import SuiteCloud.Mail.Accounts.Credentials
import SuiteCloud.Mail.Accounts.Refusal

set_option linter.unusedSectionVars false

namespace SuiteCloud.Mail.Accounts

open SuiteCloud.Library

theorem mem_kinds (kind : Kind) : kind ∈ kinds := by
  cases kind with
  | appPassword => exact List.mem_cons_self
  | apiKey => exact List.mem_cons_of_mem _ List.mem_cons_self

/-! ## Mirrored rows -/

section Mirrored

/-- The row of a credential that the cluster has, of the credentials of a kind. -/
def shown (credentials : ℕ → Option Credential) (id : ℕ) : Option CredentialRow :=
  (credentials id).map (asRow id)

/-- **The rows mirror the credentials**: the row of each of them, once, and no other. -/
structure IsMirrored (credentials : ℕ → Option Credential) (rows : List CredentialRow) : Prop where
  distinct : (rows.map (·.credentialId)).Nodup
  shows : ∀ row, row ∈ rows ↔ ∃ id, shown credentials id = some row

/-- The ids of the rows that have one. -/
def rowIds (rows : List CredentialRow) : List ℕ := rows.filterMap (·.credentialId)

variable {credentials : ℕ → Option Credential} {rows others : List CredentialRow} {row other : CredentialRow}
  {id : ℕ}

theorem credentialId_of_shown (there : shown credentials id = some row) : row.credentialId = some id := by
  obtain ⟨credential, -, rfl⟩ := Option.map_eq_some_iff.mp there
  rfl

/-- The credentials but for those revoked. -/
def without (ids : List ℕ) (credentials : ℕ → Option Credential) : ℕ → Option Credential := fun id =>
  if id ∈ ids then none else credentials id

theorem shown_without {ids : List ℕ} :
    shown (without ids credentials) id = if id ∈ ids then none else shown credentials id := by
  unfold shown without
  split
  · rfl
  · rfl

theorem shown_eq_none : shown credentials id = none ↔ credentials id = none := Option.map_eq_none_iff

theorem rowIds_cons_none (identified : row.credentialId = none) : rowIds (row :: rows) = rowIds rows :=
  List.filterMap_cons_none identified

theorem rowIds_cons_some (identified : row.credentialId = some id) : rowIds (row :: rows) = id :: rowIds rows :=
  List.filterMap_cons_some identified

theorem mem_rowIds : id ∈ rowIds rows ↔ ∃ row ∈ rows, row.credentialId = some id := List.mem_filterMap

theorem IsMirrored.shown_of_mem (mirrored : IsMirrored credentials rows) (member : row ∈ rows)
    (identified : row.credentialId = some id) : shown credentials id = some row := by
  obtain ⟨found, there⟩ := (mirrored.shows row).mp member
  have same : some found = some id := (credentialId_of_shown there).symm.trans identified
  rwa [Option.some.inj same] at there

theorem IsMirrored.identified (mirrored : IsMirrored credentials rows) (member : row ∈ rows) :
    row.credentialId.isSome := by
  obtain ⟨id, there⟩ := (mirrored.shows row).mp member
  rw [credentialId_of_shown there]
  rfl

theorem IsMirrored.mem_rowIds_iff (mirrored : IsMirrored credentials rows) :
    id ∈ rowIds rows ↔ (credentials id).isSome := by
  rw [mem_rowIds]
  constructor
  · rintro ⟨row, member, identified⟩
    obtain ⟨credential, there, -⟩ := Option.map_eq_some_iff.mp (mirrored.shown_of_mem member identified)
    rw [there]
    rfl
  · intro there
    obtain ⟨credential, found⟩ := Option.isSome_iff_exists.mp there
    have showing : shown credentials id = some (asRow id credential) := by rw [shown, found, Option.map_some]
    exact ⟨_, (mirrored.shows _).mpr ⟨id, showing⟩, rfl⟩

theorem nodup_credentialId (identified : ∀ row ∈ rows, row.credentialId.isSome)
    (distinct : (rowIds rows).Nodup) : (rows.map (·.credentialId)).Nodup := by
  have every : (rows.map (·.credentialId)).filter Option.isSome = rows.map (·.credentialId) := by
    refine List.filter_eq_self.mpr fun id member => ?_
    obtain ⟨row, there, rfl⟩ := List.mem_map.mp member
    exact identified row there
  rw [← every, ← List.map_filterMap_some_eq_filter_map_isSome]
  exact distinct.map (Option.some_injective ℕ)

theorem nodup_rowIds (distinct : (rows.map (·.credentialId)).Nodup) : (rowIds rows).Nodup := by
  have through : rowIds rows = (rows.map (·.credentialId)).filterMap id := by
    rw [List.filterMap_map]
    rfl
  rw [through]
  refine List.Nodup.filterMap ?_ distinct
  intro first second id one two
  exact Eq.trans one two.symm

theorem eq_of_credentialId (distinct : (rowIds rows).Nodup) (one : row ∈ rows) (two : other ∈ rows)
    (first : row.credentialId = some id) (second : other.credentialId = some id) : row = other := by
  induction rows with
  | nil => nomatch one
  | cons head rest ih =>
    cases identified : head.credentialId with
    | none =>
      rw [rowIds_cons_none identified] at distinct
      rcases List.mem_cons.mp one with rfl | inside
      · exact nomatch first.symm.trans identified
      · rcases List.mem_cons.mp two with rfl | later
        · exact nomatch second.symm.trans identified
        · exact ih distinct inside later
    | some found =>
      rw [rowIds_cons_some identified, List.nodup_cons] at distinct
      have absent : ∀ later ∈ rest, later.credentialId ≠ head.credentialId := by
        intro later member same
        exact distinct.1 (mem_rowIds.mpr ⟨later, member, same.trans identified⟩)
      rcases List.mem_cons.mp one with rfl | inside
      · rcases List.mem_cons.mp two with rfl | later
        · rfl
        · exact absurd (second.trans first.symm) (absent other later)
      · rcases List.mem_cons.mp two with rfl | later
        · exact absurd (first.trans second.symm) (absent row inside)
        · exact ih distinct.2 inside later

theorem IsMirrored.perm_of_mem_iff (mirrored : IsMirrored credentials rows)
    (same : ∀ row, row ∈ others ↔ row ∈ rows) (distinct : (rowIds others).Nodup) :
    IsMirrored credentials others ∧ others.Perm rows := by
  have identified : ∀ row ∈ others, row.credentialId.isSome := fun row member =>
    mirrored.identified ((same row).mp member)
  have ids := nodup_credentialId identified distinct
  refine ⟨⟨ids, fun row => (same row).trans (mirrored.shows row)⟩, ?_⟩
  exact (List.perm_ext_iff_of_nodup ids.of_map mirrored.distinct.of_map).mpr same

end Mirrored

/-! ## Rows read from the cluster -/

section Live

variable {cluster : Cluster} {createdAt : ℕ → String} {kind : Kind} {row : CredentialRow}

theorem mem_liveRows :
    row ∈ liveRows cluster createdAt kind ↔ ∃ id, shown (cluster.credentials kind) id = some row := by
  unfold liveRows
  rw [List.mem_insertionSort, List.mem_filterMap]
  constructor
  · rintro ⟨id, -, there⟩
    exact ⟨id, there⟩
  · rintro ⟨id, there⟩
    refine ⟨id, List.mem_range.mpr ?_, there⟩
    by_contra later
    have absent := cluster.issued kind id (Nat.le_of_not_lt later)
    rw [shown, absent] at there
    exact nomatch there

theorem isMirrored_liveRows : IsMirrored (cluster.credentials kind) (liveRows cluster createdAt kind) := by
  refine ⟨?_, fun row => mem_liveRows⟩
  refine List.Nodup.map_on ?_ ?_
  · intro row member other there same
    obtain ⟨id, showing⟩ := mem_liveRows.mp member
    obtain ⟨otherId, otherShowing⟩ := mem_liveRows.mp there
    rw [credentialId_of_shown showing, credentialId_of_shown otherShowing] at same
    obtain rfl : id = otherId := Option.some.inj same
    exact Option.some.inj (showing.symm.trans otherShowing)
  · unfold liveRows
    refine (List.perm_insertionSort _ _).nodup_iff.mpr ?_
    refine List.Nodup.filterMap ?_ List.nodup_range
    intro id otherId row one two
    have same : some id = some otherId := (credentialId_of_shown one).symm.trans (credentialId_of_shown two)
    exact Option.some.inj same

end Live

/-! ## The baseline -/

section Baseline

variable {credentials : ℕ → Option Credential} {before : MailAccount} {edit : Edit} {kind : Kind} {id : ℕ}

/-- The rows of the baseline. -/
def knownRows (before : MailAccount) (edit : Edit) (kind : Kind) : List CredentialRow :=
  if edit.loaded kind = [] then before.credentials kind else edit.loaded kind

/-- **The baseline gives a credential's row by its id**, where its rows mirror the cluster. -/
theorem get_baseline (mirrored : IsMirrored credentials (knownRows before edit kind)) :
    (baseline before edit kind).get id = shown credentials id := by
  let entries := (knownRows before edit kind).filterMap fun row => row.credentialId.map (·, row)
  have ids : entries.map Prod.fst = rowIds (knownRows before edit kind) := by
    rw [List.map_filterMap, rowIds]
    refine List.filterMap_congr fun row _ => ?_
    rw [Option.map_map]
    exact Option.map_id'
  have distinct : (entries.map Prod.fst).Nodup := by
    rw [ids]
    exact nodup_rowIds mirrored.distinct
  have listed : baseline before edit kind = entries := Dict.ofList_of_nodup distinct
  rw [listed]
  refine Option.ext fun row => ?_
  rw [Dict.get_eq_some distinct, List.mem_filterMap]
  constructor
  · rintro ⟨found, member, same⟩
    obtain ⟨foundId, identified, pair⟩ := Option.map_eq_some_iff.mp same
    obtain ⟨rfl, rfl⟩ := Prod.mk.inj pair
    exact mirrored.shown_of_mem member identified
  · intro there
    refine ⟨row, (mirrored.shows row).mpr ⟨id, there⟩, ?_⟩
    rw [credentialId_of_shown there, Option.map_some]

theorem mem_keys_baseline (mirrored : IsMirrored credentials (knownRows before edit kind)) :
    id ∈ (baseline before edit kind).keys ↔ (credentials id).isSome := by
  rw [← not_iff_not, ← Dict.get_eq_none, get_baseline mirrored, shown_eq_none,
    Option.not_isSome_iff_eq_none]

theorem mem_gone (mirrored : IsMirrored credentials (knownRows before edit kind)) :
    id ∈ gone before edit kind ↔
      (credentials id).isSome ∧ id ∉ rowIds (edit.after.credentials kind) := by
  unfold gone
  rw [List.mem_filter, mem_keys_baseline mirrored, decide_eq_true_iff, mem_rowIds, List.mem_map]

theorem mem_changed (mirrored : IsMirrored credentials (knownRows before edit kind)) {row : CredentialRow} :
    (id, row) ∈ changed before edit kind ↔ row ∈ edit.after.credentials kind ∧
      row.credentialId = some id ∧ ∃ was, shown credentials id = some was ∧ was ≠ row := by
  unfold changed
  rw [List.mem_filterMap]
  constructor
  · rintro ⟨found, member, same⟩
    obtain ⟨foundId, identified, rest⟩ := Option.bind_eq_some_iff.mp same
    obtain ⟨was, there, differs⟩ := Option.bind_eq_some_iff.mp rest
    split at differs
    · exact nomatch differs
    · next different =>
      obtain ⟨rfl, rfl⟩ := Prod.mk.inj (Option.some.inj differs)
      rw [get_baseline mirrored] at there
      exact ⟨member, identified, was, there, different⟩
  · rintro ⟨member, identified, was, there, different⟩
    refine ⟨row, member, ?_⟩
    rw [identified, Option.bind_some, get_baseline mirrored, there, Option.bind_some, if_neg different]

end Baseline

/-! ## The rows saved -/

section Assign

variable {next id : ℕ} {rows : List CredentialRow} {row : CredentialRow}

/-- A new row with the id its credential was given. -/
def CredentialRow.withId (row : CredentialRow) (id : ℕ) : CredentialRow := { row with credentialId := some id }

theorem assign_cons_none (identified : row.credentialId = none) :
    assign next (row :: rows) = row.withId next :: assign (next + 1) rows := by
  simp only [assign, identified, CredentialRow.withId]

theorem assign_cons_some (identified : row.credentialId = some id) :
    assign next (row :: rows) = row :: assign next rows := by
  simp only [assign, identified]

/-- **The rows saved**: those with an id, and the new ones, each with its own. -/
theorem mem_assign : row ∈ assign next rows ↔ (row ∈ rows ∧ row.credentialId.isSome) ∨
    ∃ (i : ℕ) (new : CredentialRow), (rows.filter (·.credentialId.isNone))[i]? = some new ∧
      row = new.withId (next + i) := by
  induction rows generalizing next with
  | nil => simp [assign]
  | cons head rest ih =>
    cases identified : head.credentialId with
    | none =>
      have added : (head :: rest).filter (·.credentialId.isNone) =
          head :: rest.filter (·.credentialId.isNone) :=
        List.filter_cons_of_pos (by rw [identified]; rfl)
      rw [assign_cons_none identified, added, List.mem_cons, ih, List.mem_cons]
      constructor
      · rintro (rfl | old | ⟨i, new, there, rfl⟩)
        · exact Or.inr ⟨0, head, rfl, rfl⟩
        · exact Or.inl ⟨Or.inr old.1, old.2⟩
        · exact Or.inr ⟨i + 1, new, there, by rw [Nat.add_assoc, Nat.add_comm 1 i]⟩
      · rintro (⟨rfl | old, has⟩ | ⟨i, new, there, rfl⟩)
        · rw [identified] at has
          exact nomatch has
        · exact Or.inr (Or.inl ⟨old, has⟩)
        · cases i with
          | zero =>
            obtain rfl : head = new := Option.some.inj there
            exact Or.inl rfl
          | succ i => exact Or.inr (Or.inr ⟨i, new, there, by rw [Nat.add_assoc, Nat.add_comm 1 i]⟩)
    | some found =>
      have added : (head :: rest).filter (·.credentialId.isNone) = rest.filter (·.credentialId.isNone) :=
        List.filter_cons_of_neg (by rw [identified]; exact Bool.false_ne_true)
      rw [assign_cons_some identified, added, List.mem_cons, ih, List.mem_cons]
      constructor
      · rintro (rfl | old | new)
        · exact Or.inl ⟨Or.inl rfl, by rw [identified]; rfl⟩
        · exact Or.inl ⟨Or.inr old.1, old.2⟩
        · exact Or.inr new
      · rintro (⟨rfl | old, has⟩ | new)
        · exact Or.inl rfl
        · exact Or.inr (Or.inl ⟨old, has⟩)
        · exact Or.inr (Or.inr new)

theorem old_or_new (member : row ∈ assign next rows) (identified : row.credentialId = some id) :
    id ∈ rowIds rows ∨ next ≤ id := by
  rcases mem_assign.mp member with ⟨old, -⟩ | ⟨i, new, -, rfl⟩
  · exact Or.inl (mem_rowIds.mpr ⟨row, old, identified⟩)
  · obtain rfl : next + i = id := Option.some.inj identified
    exact Or.inr (Nat.le_add_right next i)

/-- **The rows saved have distinct ids**, where all ids there were come before the new ones. -/
theorem nodup_assign (distinct : (rowIds rows).Nodup) (issued : ∀ id ∈ rowIds rows, id < next) :
    ((assign next rows).map (·.credentialId)).Nodup := by
  induction rows generalizing next with
  | nil => exact List.nodup_nil
  | cons head rest ih =>
    cases identified : head.credentialId with
    | none =>
      rw [rowIds_cons_none identified] at distinct issued
      rw [assign_cons_none identified, List.map_cons, List.nodup_cons]
      refine ⟨?_, ih distinct fun id member => Nat.lt_succ_of_lt (issued id member)⟩
      intro again
      obtain ⟨row, member, same⟩ := List.mem_map.mp again
      rcases old_or_new member same with old | new
      · exact absurd (issued next old) (Nat.lt_irrefl next)
      · exact absurd new (Nat.not_succ_le_self next)
    | some found =>
      rw [rowIds_cons_some identified] at distinct issued
      obtain ⟨absent, distinct⟩ := List.nodup_cons.mp distinct
      rw [assign_cons_some identified, List.map_cons, List.nodup_cons]
      refine ⟨?_, ih distinct fun id member => issued id (List.mem_cons_of_mem _ member)⟩
      intro again
      obtain ⟨row, member, same⟩ := List.mem_map.mp again
      rcases old_or_new member (same.trans identified) with old | new
      · exact absent old
      · have early := issued found List.mem_cons_self
        omega

theorem map_description_assign : (assign next rows).map (·.description) = rows.map (·.description) := by
  induction rows generalizing next with
  | nil => rfl
  | cons head rest ih =>
    cases identified : head.credentialId with
    | none =>
      rw [assign_cons_none identified, List.map_cons, ih]
      rfl
    | some found => rw [assign_cons_some identified, List.map_cons, ih, List.map_cons]

end Assign

/-! ## The calls for one kind -/

section Push

variable {cluster : Cluster} {kind other : Kind} {id : ℕ}

/-- The calls leave the other kind, the roles and the account's own. -/
structure LeavesOthers (kind : Kind) (cluster after : Cluster) : Prop where
  others : ∀ other, other ≠ kind → after.credentials other = cluster.credentials other
  account : after.account = cluster.account
  roles : after.roles = cluster.roles

theorem LeavesOthers.trans {first second third : Cluster} (one : LeavesOthers kind first second)
    (two : LeavesOthers kind second third) : LeavesOthers kind first third where
  others other different := (two.others other different).trans (one.others other different)
  account := two.account.trans one.account
  roles := two.roles.trans one.roles

/-- The cluster once a credential was created for each row. -/
def creating (kind : Kind) (rows : List CredentialRow) (cluster : Cluster) : Cluster :=
  (rows.map fun row => Call.createCredential kind row.credential).foldl accept cluster

/-- The cluster once each credential was written. -/
def updating (kind : Kind) (entries : List (ℕ × CredentialRow)) (cluster : Cluster) : Cluster :=
  (entries.map fun entry => Call.updateCredential kind entry.1 entry.2.credential).foldl accept cluster

theorem next_creating (rows : List CredentialRow) :
    (creating kind rows cluster).next = cluster.next + rows.length := by
  induction rows generalizing cluster with
  | nil => rfl
  | cons row rest ih =>
    show (creating kind rest (accept cluster (.createCredential kind row.credential))).next = _
    rw [ih, List.length_cons]
    show cluster.next + 1 + rest.length = _
    omega

theorem leavesOthers_creating (rows : List CredentialRow) :
    LeavesOthers kind cluster (creating kind rows cluster) := by
  induction rows generalizing cluster with
  | nil => exact ⟨fun _ _ => rfl, rfl, rfl⟩
  | cons row rest ih =>
    have first : LeavesOthers kind cluster (accept cluster (.createCredential kind row.credential)) := by
      refine ⟨fun other different => ?_, rfl, rfl⟩
      funext id
      exact if_neg fun same => different same.1
    exact first.trans ih

theorem credentials_creating (rows : List CredentialRow) :
    (creating kind rows cluster).credentials kind id =
      if id < cluster.next then cluster.credentials kind id
      else (rows[id - cluster.next]?).map CredentialRow.credential := by
  induction rows generalizing cluster with
  | nil =>
    show cluster.credentials kind id = _
    split
    · rfl
    · next later => exact cluster.issued kind id (Nat.le_of_not_lt later)
  | cons row rest ih =>
    show (creating kind rest (accept cluster (.createCredential kind row.credential))).credentials kind id = _
    have issued : (accept cluster (.createCredential kind row.credential)).next = cluster.next + 1 := rfl
    have added : (accept cluster (.createCredential kind row.credential)).credentials kind id =
        if id = cluster.next then some row.credential else cluster.credentials kind id := by
      show (if kind = kind ∧ id = cluster.next then _ else _) = _
      simp only [true_and]
    rw [ih, issued, added]
    rcases Nat.lt_trichotomy id cluster.next with early | rfl | later
    · rw [if_pos (Nat.lt_succ_of_lt early), if_neg (Nat.ne_of_lt early), if_pos early]
    · rw [if_pos (Nat.lt_succ_self _), if_pos rfl, if_neg (Nat.lt_irrefl _), Nat.sub_self]
      rfl
    · rw [if_neg (by omega), if_neg (by omega)]
      have shifted : id - cluster.next = id - (cluster.next + 1) + 1 := by omega
      rw [shifted, List.getElem?_cons_succ]

theorem leavesOthers_updating (entries : List (ℕ × CredentialRow)) :
    LeavesOthers kind cluster (updating kind entries cluster) ∧
      (updating kind entries cluster).next = cluster.next := by
  induction entries generalizing cluster with
  | nil => exact ⟨⟨fun _ _ => rfl, rfl, rfl⟩, rfl⟩
  | cons entry rest ih =>
    have first : LeavesOthers kind cluster
        (accept cluster (.updateCredential kind entry.1 entry.2.credential)) := by
      refine ⟨fun other different => ?_, rfl, rfl⟩
      funext id
      exact if_neg fun same => different same.1
    exact ⟨first.trans ih.1, ih.2⟩

theorem credentials_updating_of_not_mem {entries : List (ℕ × CredentialRow)}
    (absent : id ∉ entries.map Prod.fst) :
    (updating kind entries cluster).credentials kind id = cluster.credentials kind id := by
  induction entries generalizing cluster with
  | nil => rfl
  | cons entry rest ih =>
    rw [List.map_cons, List.mem_cons, not_or] at absent
    have before : (accept cluster (.updateCredential kind entry.1 entry.2.credential)).credentials kind id =
        cluster.credentials kind id := if_neg fun same => absent.1 same.2
    exact (ih absent.2).trans before

theorem credentials_updating {entries : List (ℕ × CredentialRow)} {row : CredentialRow}
    (distinct : (entries.map Prod.fst).Nodup) (member : (id, row) ∈ entries) :
    (updating kind entries cluster).credentials kind id =
      (cluster.credentials kind id).map fun _ => row.credential := by
  induction entries generalizing cluster with
  | nil => nomatch member
  | cons entry rest ih =>
    rw [List.map_cons, List.nodup_cons] at distinct
    show (updating kind rest (accept cluster (.updateCredential kind entry.1 entry.2.credential))).credentials
      kind id = _
    rcases List.mem_cons.mp member with rfl | later
    · rw [credentials_updating_of_not_mem distinct.1]
      exact if_pos ⟨rfl, rfl⟩
    · have different : id ≠ entry.1 := by
        rintro rfl
        exact distinct.1 (List.mem_map.mpr ⟨_, later, rfl⟩)
      have before : (accept cluster (.updateCredential kind entry.1 entry.2.credential)).credentials kind id =
          cluster.credentials kind id := if_neg fun same => different same.2
      rw [ih distinct.2 later, before]

variable {before : MailAccount} {edit : Edit}

theorem foldl_pushKind : (pushKind before edit kind).foldl accept cluster =
    updating kind (changed before edit kind) (creating kind (added edit kind) cluster) := by
  unfold pushKind
  split
  · next untouched =>
    rw [untouched.1, untouched.2.1]
    rfl
  · rw [List.foldl_cons, List.foldl_append]
    rfl

theorem leavesOthers_pushKind :
    LeavesOthers kind cluster ((pushKind before edit kind).foldl accept cluster) := by
  rw [foldl_pushKind]
  exact (leavesOthers_creating _).trans (leavesOthers_updating _).1

theorem next_pushKind : ((pushKind before edit kind).foldl accept cluster).next =
    cluster.next + (added edit kind).length := by
  rw [foldl_pushKind, (leavesOthers_updating _).2, next_creating]

theorem map_fst_sublist {pick : CredentialRow → Option (ℕ × CredentialRow)}
    (identifies : ∀ row entry, pick row = some entry → row.credentialId = some entry.1)
    (rows : List CredentialRow) : ((rows.filterMap pick).map Prod.fst).Sublist (rowIds rows) := by
  induction rows with
  | nil => exact List.Sublist.slnil
  | cons row rest ih =>
    cases picked : pick row with
    | none =>
      rw [List.filterMap_cons_none picked]
      exact ih.trans ((List.sublist_cons_self row rest).filterMap _)
    | some entry =>
      rw [List.filterMap_cons_some picked, List.map_cons, rowIds_cons_some (identifies row entry picked)]
      exact ih.cons_cons entry.1

theorem changed_sublist : ((changed before edit kind).map Prod.fst).Sublist
    (rowIds (edit.after.credentials kind)) := by
  refine map_fst_sublist ?_ _
  intro row entry picked
  obtain ⟨id, identified, rest⟩ := Option.bind_eq_some_iff.mp picked
  obtain ⟨was, -, differs⟩ := Option.bind_eq_some_iff.mp rest
  split at differs
  · exact nomatch differs
  · obtain rfl := Option.some.inj differs
    exact identified

/-- Rows with ids of credentials there are, each once. -/
structure IsDrawnFrom (credentials : ℕ → Option Credential) (rows : List CredentialRow) : Prop where
  distinct : (rowIds rows).Nodup
  there : ∀ id ∈ rowIds rows, (credentials id).isSome

theorem lt_next (there : (cluster.credentials kind id).isSome) : id < cluster.next := by
  by_contra later
  rw [cluster.issued kind id (Nat.le_of_not_lt later)] at there
  exact nomatch there

theorem asRow_credential {row : CredentialRow} (described : row.description ≠ "") (id : ℕ) :
    asRow id row.credential = row.withId id := by
  unfold asRow CredentialRow.credential CredentialRow.withId
  rw [if_neg described]

section Written

variable (mirrored : IsMirrored (cluster.credentials kind) (knownRows before edit kind))
  (drawn : IsDrawnFrom (cluster.credentials kind) (edit.after.credentials kind))
  (described : ∀ row ∈ edit.after.credentials kind, row.description ≠ "")
include drawn

theorem credentials_pushKind_new (later : cluster.next ≤ id) :
    ((pushKind before edit kind).foldl accept cluster).credentials kind id =
      ((added edit kind)[id - cluster.next]?).map CredentialRow.credential := by
  have absent : id ∉ (changed before edit kind).map Prod.fst := fun member =>
    absurd (lt_next (drawn.there id (changed_sublist.subset member))) (Nat.not_lt_of_le later)
  rw [foldl_pushKind, credentials_updating_of_not_mem absent, credentials_creating,
    if_neg (Nat.not_lt_of_le later)]

theorem credentials_pushKind_gone (early : id < cluster.next) (absent : id ∉ rowIds (edit.after.credentials kind)) :
    ((pushKind before edit kind).foldl accept cluster).credentials kind id = cluster.credentials kind id := by
  rw [foldl_pushKind, credentials_updating_of_not_mem fun member => absent (changed_sublist.subset member),
    credentials_creating, if_pos early]

include mirrored described

theorem shown_pushKind_old {row : CredentialRow} (member : row ∈ edit.after.credentials kind)
    (identified : row.credentialId = some id) :
    shown (((pushKind before edit kind).foldl accept cluster).credentials kind) id = some row := by
  have there := drawn.there id (mem_rowIds.mpr ⟨row, member, identified⟩)
  have early := lt_next there
  obtain ⟨credential, found⟩ := Option.isSome_iff_exists.mp there
  have showing : shown (cluster.credentials kind) id = some (asRow id credential) := by
    rw [shown, found, Option.map_some]
  rw [foldl_pushKind]
  unfold shown
  by_cases same : asRow id credential = row
  · have absent : id ∉ (changed before edit kind).map Prod.fst := by
      intro again
      obtain ⟨⟨_, other⟩, entry, rfl⟩ := List.mem_map.mp again
      obtain ⟨inside, otherIdentified, was, was_shown, different⟩ := (mem_changed mirrored).mp entry
      have equal := eq_of_credentialId drawn.distinct inside member otherIdentified identified
      have was_same := Option.some.inj (showing.symm.trans was_shown)
      exact different (was_same.symm.trans (same.trans equal.symm))
    rw [credentials_updating_of_not_mem absent, credentials_creating, if_pos early, found, Option.map_some, same]
  · have entry : (id, row) ∈ changed before edit kind :=
      (mem_changed mirrored).mpr ⟨member, identified, _, showing, same⟩
    rw [credentials_updating (drawn.distinct.sublist changed_sublist) entry, credentials_creating,
      if_pos early, found, Option.map_some, Option.map_some, asRow_credential (described row member)]
    show some { row with credentialId := some id } = some row
    rw [← identified]

/-- **The rows saved mirror the cluster** once what was taken out is revoked. -/
theorem isMirrored_pushKind : IsMirrored
    (without (gone before edit kind) (((pushKind before edit kind).foldl accept cluster).credentials kind))
    (assign cluster.next (edit.after.credentials kind)) := by
  have issued : ∀ id ∈ rowIds (edit.after.credentials kind), id < cluster.next := fun id member =>
    lt_next (drawn.there id member)
  have distinct := nodup_assign drawn.distinct issued
  refine ⟨distinct, fun row => ?_⟩
  constructor
  · intro member
    rcases mem_assign.mp member with ⟨old, has⟩ | ⟨i, new, fresh, rfl⟩
    · obtain ⟨id, identified⟩ := Option.isSome_iff_exists.mp has
      have kept : id ∉ gone before edit kind := fun out =>
        ((mem_gone mirrored).mp out).2 (mem_rowIds.mpr ⟨row, old, identified⟩)
      refine ⟨id, ?_⟩
      rw [shown_without, if_neg kept]
      exact shown_pushKind_old mirrored drawn described old identified
    · have later := Nat.le_add_right cluster.next i
      have kept : cluster.next + i ∉ gone before edit kind := fun out =>
        absurd (lt_next ((mem_gone mirrored).mp out).1) (Nat.not_lt_of_le later)
      have inside : new ∈ edit.after.credentials kind := List.mem_of_mem_filter (List.mem_of_getElem? fresh)
      refine ⟨cluster.next + i, ?_⟩
      rw [shown_without, if_neg kept, shown, credentials_pushKind_new drawn later, Nat.add_sub_cancel_left, added,
        fresh, Option.map_some, Option.map_some, asRow_credential (described new inside)]
  · rintro ⟨id, showing⟩
    have identified := credentialId_of_shown showing
    rw [shown_without] at showing
    split at showing
    · exact nomatch showing
    · next kept =>
      rcases Nat.lt_or_ge id cluster.next with early | later
      · by_cases inside : id ∈ rowIds (edit.after.credentials kind)
        · obtain ⟨found, member, same⟩ := mem_rowIds.mp inside
          have also := shown_pushKind_old mirrored drawn described member same
          obtain rfl : found = row := Option.some.inj (also.symm.trans showing)
          exact mem_assign.mpr (Or.inl ⟨member, by rw [same]; rfl⟩)
        · rw [shown, credentials_pushKind_gone drawn early inside] at showing
          obtain ⟨credential, there, -⟩ := Option.map_eq_some_iff.mp showing
          exact absurd ((mem_gone mirrored).mpr ⟨by rw [there]; rfl, inside⟩) kept
      · rw [shown, credentials_pushKind_new drawn later, Option.map_map] at showing
        obtain ⟨new, fresh, rfl⟩ := Option.map_eq_some_iff.mp showing
        have inside : new ∈ edit.after.credentials kind := List.mem_of_mem_filter (List.mem_of_getElem? fresh)
        refine mem_assign.mpr (Or.inr ⟨id - cluster.next, new, fresh, ?_⟩)
        rw [Nat.add_sub_cancel' later]
        exact asRow_credential (described new inside) id

end Written

end Push

/-! ## All calls of a save -/

/-- A call that writes neither a credential nor the roles. -/
def Call.isPlain : Call → Bool
  | .createCredential _ _ => false
  | .updateCredential _ _ _ => false
  | .setRoles _ => false
  | _ => true

section Save

variable {ids : Ids} {cluster : Cluster} {before : MailAccount} {edit : Edit} {sent : List Call}

/-- What the plain calls leave. -/
structure Unwritten (cluster after : Cluster) : Prop where
  credentials : after.credentials = cluster.credentials
  next : after.next = cluster.next
  roles : after.account.roles = cluster.account.roles
  clusterRoles : after.roles = cluster.roles

theorem unwritten_foldl {calls : List Call} (plain : ∀ call ∈ calls, call.isPlain) (cluster : Cluster) :
    Unwritten cluster (calls.foldl accept cluster) := by
  induction calls generalizing cluster with
  | nil => exact ⟨rfl, rfl, rfl, rfl⟩
  | cons call rest ih =>
    have later := ih (fun call member => plain call (List.mem_cons_of_mem _ member)) (accept cluster call)
    have first : Unwritten cluster (accept cluster call) := by
      cases call with
      | createCredential kind credential => exact nomatch plain _ List.mem_cons_self
      | updateCredential kind id credential => exact nomatch plain _ List.mem_cons_self
      | setRoles roles => exact nomatch plain _ List.mem_cons_self
      | _ => exact ⟨rfl, rfl, rfl, rfl⟩
    exact ⟨later.credentials.trans first.credentials, later.next.trans first.next,
      later.roles.trans first.roles, later.clusterRoles.trans first.clusterRoles⟩

theorem isShut_congr {after : Cluster} (roles : after.account.roles = cluster.account.roles)
    (clusterRoles : after.roles = cluster.roles) : isShut after = isShut cluster := by
  unfold isShut disabledRole
  rw [roles, clusterRoles]

/-- The session is shut exactly when the account was disabled. -/
def ShutAs (cluster : Cluster) (account : MailAccount) : Prop := isShut cluster = !account.enabled

theorem shutAs_pushEnabled {now : Cluster} {after : MailAccount} (shut : ShutAs now before)
    (roles : now.roles = cluster.roles) (ends : (pushEnabled cluster before after).ends = some ()) :
    ShutAs ((pushEnabled cluster before after).sent.foldl accept now) after ∧
      ((pushEnabled cluster before after).sent.foldl accept now).credentials = now.credentials := by
  unfold pushEnabled at ends ⊢
  split at ends
  · next same =>
    rw [if_pos same]
    refine ⟨?_, rfl⟩
    show isShut now = !after.enabled
    rw [shut, same]
  · next different =>
    rw [if_neg different]
    split at ends
    · next enabled =>
      rw [if_pos enabled]
      refine ⟨?_, rfl⟩
      show false = !after.enabled
      rw [enabled]
      rfl
    · next disabled =>
      rw [if_neg disabled]
      cases found : disabledRole cluster with
      | none =>
        rw [found] at ends
        exact nomatch ends
      | some role =>
        refine ⟨?_, rfl⟩
        show isShut { now with account := { now.account with roles := .custom {role} } } = !after.enabled
        have here : disabledRole { now with account := { now.account with roles := .custom {role} } } =
            some role := by
          unfold disabledRole at found ⊢
          rw [← found, roles]
        unfold isShut
        simp only [here, Option.any_some, Finset.mem_singleton, decide_true]
        rw [Bool.eq_false_iff.mpr disabled]
        rfl

/-- **How a save is sent**: the credentials of each kind, `enabled`, and plain calls before and after. -/
def Sends (cluster : Cluster) (before : MailAccount) (edit : Edit) (sent : List Call) : Prop :=
  ∃ front back : List Call, (∀ call ∈ front, call.isPlain) ∧ (∀ call ∈ back, call.isPlain) ∧
    (pushEnabled cluster before edit.after).ends = some () ∧
    sent = front ++ (pushKind before edit .appPassword ++ (pushKind before edit .apiKey ++
      ((pushEnabled cluster before edit.after).sent ++ back)))

theorem isPlain_of_mem_exemptionCalls {after : MailAccount} :
    ∀ call ∈ exemptionCalls cluster before after, call.isPlain := by
  unfold exemptionCalls setExempt
  split
  · exact List.forall_mem_nil _
  · rw [List.forall_mem_cons]
    refine ⟨rfl, ?_⟩
    split
    · simp [Call.isPlain]
    · split
      · simp [Call.isPlain]
      · exact List.forall_mem_nil _

theorem isPlain_of_mem_updateCalls {after : MailAccount} {profile : Patch} :
    ∀ call ∈ updateCalls cluster before after profile, call.isPlain := by
  unfold updateCalls
  rw [List.forall_mem_append]
  constructor
  · split
    · exact List.forall_mem_nil _
    · simp [Call.isPlain]
  · split
    · exact List.forall_mem_nil _
    · simp [Call.isPlain]

theorem isPlain_of_mem_setPassword : ∀ call ∈ (setPassword edit).sent, call.isPlain := by
  rcases setPassword_sent with ⟨none, -⟩ | ⟨⟨password, sent⟩, -⟩
  · rw [none]
    exact List.forall_mem_nil _
  · rw [sent]
    simp [Call.isPlain]

theorem sends_onUpdate (pushes : edit.pushes = true)
    (ends : (onUpdate ids cluster before edit).ends = some ()) :
    Sends cluster before edit (onUpdate ids cluster before edit).sent := by
  have parts := ends
  rw [onUpdate, if_pos pushes] at parts
  obtain ⟨_, -, parts⟩ := Calls.ends_bind_eq_some.mp parts
  obtain ⟨profile, resolved, parts⟩ := Calls.ends_bind_eq_some.mp parts
  obtain ⟨_, -, parts⟩ := Calls.ends_bind_eq_some.mp parts
  obtain ⟨_, -, parts⟩ := Calls.ends_bind_eq_some.mp parts
  obtain ⟨_, -, parts⟩ := Calls.ends_bind_eq_some.mp parts
  obtain ⟨_, switched, -⟩ := Calls.ends_bind_eq_some.mp parts
  have resolved : profilePatch ids before edit.after = some profile := resolved
  have last : lastCalls cluster before edit =
      (pushEnabled cluster before edit.after).sent ++ (setPassword edit).sent := by
    rw [lastCalls, Calls.bind_of_ends switched]
  refine ⟨exemptionCalls cluster before edit.after ++ updateCalls cluster before edit.after profile,
    (setPassword edit).sent, ?_, isPlain_of_mem_setPassword, switched, ?_⟩
  · exact List.forall_mem_append.mpr ⟨isPlain_of_mem_exemptionCalls, isPlain_of_mem_updateCalls⟩
  · rw [onUpdate_sent pushes, resolved, last, List.append_assoc]

theorem sends_afterInsert (ends : (afterInsert cluster before edit).ends = some ()) :
    Sends cluster before edit (afterInsert cluster before edit).sent := by
  have parts := ends
  unfold afterInsert at parts
  obtain ⟨_, -, parts⟩ := Calls.ends_bind_eq_some.mp parts
  obtain ⟨_, -, parts⟩ := Calls.ends_bind_eq_some.mp parts
  obtain ⟨_, switched, -⟩ := Calls.ends_bind_eq_some.mp parts
  refine ⟨[], exemptionCalls cluster before edit.after, List.forall_mem_nil _,
    isPlain_of_mem_exemptionCalls, switched, ?_⟩
  unfold afterInsert
  rw [Calls.bind_of_ends switched]
  rfl

end Save

/-! ## The commit -/

section Commit

/-- **What a save may be sent with**: a baseline that mirrors the cluster, and rows with ids of it. -/
structure IsReady (cluster : Cluster) (before : MailAccount) (edit : Edit) : Prop where
  mirrored : ∀ kind, IsMirrored (cluster.credentials kind) (knownRows before edit kind)
  drawn : ∀ kind, IsDrawnFrom (cluster.credentials kind) (edit.after.credentials kind)
  described : ∀ kind, ∀ row ∈ edit.after.credentials kind, row.description ≠ ""

variable {cluster : Cluster} {before : MailAccount} {edit : Edit} {sent : List Call}

theorem isMirrored_sent (ready : IsReady cluster before edit) (shut : ShutAs cluster before)
    (sends : Sends cluster before edit sent) :
    ShutAs (sent.foldl accept cluster) edit.after ∧
      ∀ kind, IsMirrored (without (gone before edit kind) ((sent.foldl accept cluster).credentials kind))
        ((edit.saved cluster.next).credentials kind) := by
  obtain ⟨front, back, plainFront, plainBack, ends, rfl⟩ := sends
  simp only [List.foldl_append]
  have first := unwritten_foldl plainFront cluster
  generalize front.foldl accept cluster = started at first ⊢
  have second : LeavesOthers .appPassword started
      ((pushKind before edit .appPassword).foldl accept started) := leavesOthers_pushKind
  have issued : ((pushKind before edit .appPassword).foldl accept started).next =
      started.next + (added edit .appPassword).length := next_pushKind
  have known : IsMirrored (started.credentials .appPassword) (knownRows before edit .appPassword) := by
    rw [first.credentials]
    exact ready.mirrored .appPassword
  have drawn : IsDrawnFrom (started.credentials .appPassword) (edit.after.credentials .appPassword) := by
    rw [first.credentials]
    exact ready.drawn .appPassword
  have appPasswords := isMirrored_pushKind known drawn (ready.described .appPassword)
  generalize (pushKind before edit .appPassword).foldl accept started = middle at second issued appPasswords ⊢
  have third : LeavesOthers .apiKey middle ((pushKind before edit .apiKey).foldl accept middle) :=
    leavesOthers_pushKind
  have untouched : middle.credentials .apiKey = cluster.credentials .apiKey := by
    rw [second.others .apiKey nofun, first.credentials]
  have knownKeys : IsMirrored (middle.credentials .apiKey) (knownRows before edit .apiKey) := by
    rw [untouched]
    exact ready.mirrored .apiKey
  have drawnKeys : IsDrawnFrom (middle.credentials .apiKey) (edit.after.credentials .apiKey) := by
    rw [untouched]
    exact ready.drawn .apiKey
  have apiKeys := isMirrored_pushKind knownKeys drawnKeys (ready.described .apiKey)
  generalize (pushKind before edit .apiKey).foldl accept middle = written at third apiKeys ⊢
  have roles : written.roles = cluster.roles := by
    rw [third.roles, second.roles, first.clusterRoles]
  have open_ : ShutAs written before := by
    have same : isShut written = isShut cluster := isShut_congr
      (by rw [third.account, second.account, first.roles]) roles
    exact same.trans shut
  obtain ⟨switched, left⟩ := shutAs_pushEnabled open_ roles ends
  generalize (pushEnabled cluster before edit.after).sent.foldl accept written = ended at switched left ⊢
  have last := unwritten_foldl plainBack ended
  refine ⟨(isShut_congr last.roles last.clusterRoles).trans switched, fun kind => ?_⟩
  rw [last.credentials, left]
  cases kind with
  | appPassword =>
    rw [third.others .appPassword nofun]
    rw [first.next] at appPasswords
    exact appPasswords
  | apiKey =>
    rw [issued, first.next] at apiKeys
    exact apiKeys

/-- **The rows committed mirror the cluster**: the session is open for the revocations, or there are none. -/
theorem isMirrored_commit {s : State} {now : String} (ready : IsReady s.cluster before edit)
    (shut : ShutAs s.cluster before) (sends : Sends s.cluster before edit sent)
    (kept : edit.after.enabled = false → ∀ kind, gone before edit kind = []) :
    ShutAs (s.commit before edit sent now).cluster edit.after ∧
      ∀ kind, IsMirrored ((s.commit before edit sent now).cluster.credentials kind)
        ((edit.saved s.cluster.next).credentials kind) := by
  obtain ⟨switched, mirrored⟩ := isMirrored_sent ready shut sends
  unfold State.commit
  cases enabled : edit.after.enabled with
  | true =>
    have opened : isShut (sent.foldl accept s.cluster) = false := by
      rw [switched, enabled]
      rfl
    simp only [opened, Bool.false_eq_true, if_false]
    exact ⟨switched, mirrored⟩
  | false =>
    have shut : isShut (sent.foldl accept s.cluster) = true := by
      rw [switched, enabled]
      rfl
    simp only [shut, if_true]
    refine ⟨switched, fun kind => ?_⟩
    have nothing : without (gone before edit kind) ((sent.foldl accept s.cluster).credentials kind) =
        (sent.foldl accept s.cluster).credentials kind := by
      rw [kept enabled kind]
      funext id
      exact if_neg List.not_mem_nil
    rw [← nothing]
    exact mirrored kind

end Commit

end SuiteCloud.Mail.Accounts
