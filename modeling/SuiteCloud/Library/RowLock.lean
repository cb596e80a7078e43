/-
**One row and the transactions that write it.**

A row has a committed version. A transaction that writes it, or reads it `FOR UPDATE`, locks it and
sees a version of its own until it ends; no other transaction can lock the row before that.

* `write` — an update, which waits for the lock and acts on the latest version; `lock` — a locking
  read.
* `undo` — a rollback to a savepoint set before the transaction wrote: the lock stays.
* `commit`, `release` — the end of a transaction, kept or rolled back.
* `committed_commit` — what a commit makes of the committed version.
-/

import Mathlib.Tactic.Common

set_option linter.unusedSectionVars false

namespace SuiteCloud.Library

/-- A row as it is committed, and as the transaction that has it locked sees it. -/
structure RowLock (O R : Type*) where
  committed : R
  held : Option (O × R)

namespace RowLock

variable {O R : Type*} [DecidableEq O]

/-- A row that nobody has locked. -/
def free (row : R) : RowLock O R := ⟨row, none⟩

/-- The version an update acts on. -/
def latest (row : RowLock O R) : R :=
  match row.held with
  | some (_, version) => version
  | none => row.committed

/-- The transaction has the row locked. -/
def isHeldBy (row : RowLock O R) (me : O) : Bool := row.held.any fun held => held.1 = me

/-- Nobody else has the row locked. -/
def mayLock (row : RowLock O R) (me : O) : Bool := row.held.all fun held => held.1 = me

/-- What a transaction sees of the row: its own version, or the committed one. -/
def seen (row : RowLock O R) (me : O) : R := if row.isHeldBy me then row.latest else row.committed

/-- An update, which waits for the lock. -/
def write (row : RowLock O R) (me : O) (change : R → R) : Option (RowLock O R) :=
  if row.mayLock me then some ⟨row.committed, some (me, change row.latest)⟩ else none

/-- A locking read. -/
def lock (row : RowLock O R) (me : O) : Option (RowLock O R) := row.write me id

/-- A rollback to a savepoint that stands before the transaction's first write. -/
def undo (row : RowLock O R) (me : O) : RowLock O R :=
  if row.isHeldBy me then ⟨row.committed, some (me, row.committed)⟩ else row

/-- The transaction ends and its version is the committed one. -/
def commit (row : RowLock O R) (me : O) : RowLock O R :=
  if row.isHeldBy me then ⟨row.latest, none⟩ else row

/-- The transaction ends and leaves nothing. -/
def release (row : RowLock O R) (me : O) : RowLock O R :=
  if row.isHeldBy me then ⟨row.committed, none⟩ else row

variable {row after : RowLock O R} {me other : O} {change : R → R}

theorem isHeldBy_iff : row.isHeldBy me ↔ ∃ version, row.held = some (me, version) := by
  unfold isHeldBy
  cases row.held with
  | none => simp
  | some held => simp [Prod.ext_iff, eq_comm]

theorem latest_of_held {version : R} (held : row.held = some (me, version)) :
    row.latest = version := by
  unfold latest
  rw [held]

theorem latest_of_free (unheld : row.held = none) : row.latest = row.committed := by
  unfold latest
  rw [unheld]

/-- Where one has the row locked, nobody else gets the lock. -/
theorem eq_of_mayLock (allowed : row.mayLock other) {version : R}
    (held : row.held = some (me, version)) : me = other := by
  unfold mayLock at allowed
  rw [held] at allowed
  exact of_decide_eq_true allowed

/-- **An update**: the lock was free or one's own, and the version changes. -/
theorem write_eq_some : row.write me change = some after ↔
    row.mayLock me ∧ after = ⟨row.committed, some (me, change row.latest)⟩ := by
  unfold write
  split
  · next allowed => simp [allowed, eq_comm]
  · next refused => simp [refused]

theorem committed_write (written : row.write me change = some after) :
    after.committed = row.committed := by
  rw [(write_eq_some.1 written).2]

theorem held_write (written : row.write me change = some after) :
    after.held = some (me, change row.latest) := by
  rw [(write_eq_some.1 written).2]

@[simp] theorem committed_undo : (row.undo me).committed = row.committed := by
  unfold undo
  split <;> rfl

@[simp] theorem committed_release : (row.release me).committed = row.committed := by
  unfold release
  split <;> rfl

/-- After an undo the version is the committed one, if one had the row locked. -/
theorem held_undo : (row.undo me).held =
    if row.isHeldBy me then some (me, row.committed) else row.held := by
  unfold undo
  split <;> rfl

theorem held_release : (row.release me).held = if row.isHeldBy me then none else row.held := by
  unfold release
  split <;> rfl

theorem held_commit : (row.commit me).held = if row.isHeldBy me then none else row.held := by
  unfold commit
  split <;> rfl

/-- **A commit** keeps the version of its transaction, where it has one. -/
theorem committed_commit : (row.commit me).committed =
    if row.isHeldBy me then row.latest else row.committed := by
  unfold commit
  split <;> rfl

/-- The committed version changes to the version of the transaction, or not at all. -/
theorem committed_commit_of (Holds : R → Prop) (before : Holds row.committed)
    (written : ∀ version, row.held = some (me, version) → Holds version) :
    Holds (row.commit me).committed := by
  rw [committed_commit]
  split
  · next mine =>
    obtain ⟨version, held⟩ := isHeldBy_iff.1 mine
    rw [latest_of_held held]
    exact written version held
  · exact before

/-- What one writes is seen by nobody who has the row locked. -/
theorem write_held_other (foreign : other ≠ me) (written : row.write me change = some after)
    {version : R} : after.held = some (other, version) ↔ row.held = some (other, version) := by
  obtain ⟨allowed, rfl⟩ := write_eq_some.1 written
  constructor
  · intro held
    exact absurd (Prod.mk.inj (Option.some.inj held)).1.symm foreign
  · intro held
    exact absurd (eq_of_mayLock allowed held) foreign

/-- Where somebody has the row locked, nobody else's transaction has a version of it. -/
theorem held_other_of (foreign : other ≠ me) {version : R} {left : Option (O × R)}
    (same : after.held = if row.isHeldBy me then left else row.held)
    (mine : ∀ kept, left = some (other, kept) → False) :
    after.held = some (other, version) ↔ row.held = some (other, version) := by
  rw [same]
  split
  · next held =>
    obtain ⟨own, held⟩ := isHeldBy_iff.1 held
    rw [held]
    constructor
    · exact fun there => (mine version there).elim
    · intro there
      exact absurd (Prod.mk.inj (Option.some.inj there)).1.symm foreign
  · exact Iff.rfl

theorem commit_held_other (foreign : other ≠ me) {version : R} :
    (row.commit me).held = some (other, version) ↔ row.held = some (other, version) :=
  held_other_of foreign held_commit fun _ => nofun

theorem release_held_other (foreign : other ≠ me) {version : R} :
    (row.release me).held = some (other, version) ↔ row.held = some (other, version) :=
  held_other_of foreign held_release fun _ => nofun

theorem undo_held_other (foreign : other ≠ me) {version : R} :
    (row.undo me).held = some (other, version) ↔ row.held = some (other, version) :=
  held_other_of foreign held_undo
    fun _ mine => foreign (Prod.mk.inj (Option.some.inj mine)).1.symm

/-- The version one's update acts on is one's own, or the committed one. -/
theorem latest_of_mayLock (allowed : row.mayLock me) :
    row.latest = row.committed ∨ row.held = some (me, row.latest) := by
  cases held : row.held with
  | none => exact Or.inl (latest_of_free held)
  | some version =>
    obtain ⟨owner, version⟩ := version
    obtain rfl := eq_of_mayLock allowed held
    rw [latest_of_held held]
    exact Or.inr rfl

/-- After an undo one's update acts on the committed version. -/
theorem latest_undo (allowed : (row.undo me).mayLock me) : (row.undo me).latest = row.committed := by
  obtain committed | held := latest_of_mayLock allowed
  · rw [committed, committed_undo]
  · rw [held_undo] at held
    split at held
    · exact (Prod.mk.inj (Option.some.inj held)).2.symm
    · next foreign => exact absurd (isHeldBy_iff.2 ⟨_, held⟩) foreign

/-- Nobody has the row locked after the end of the one who had. -/
theorem not_held_commit {version : R} : (row.commit me).held ≠ some (me, version) := by
  intro held
  rw [held_commit] at held
  split at held
  · cases held
  · next foreign => exact foreign (isHeldBy_iff.2 ⟨version, held⟩)

theorem not_held_release {version : R} : (row.release me).held ≠ some (me, version) := by
  intro held
  rw [held_release] at held
  split at held
  · cases held
  · next foreign => exact foreign (isHeldBy_iff.2 ⟨version, held⟩)

/-! ## What a transaction sees -/

theorem seen_of_held {version : R} (held : row.held = some (me, version)) : row.seen me = version := by
  rw [seen, if_pos (isHeldBy_iff.2 ⟨version, held⟩), latest_of_held held]

theorem seen_of_not_held (foreign : ∀ version, row.held ≠ some (me, version)) :
    row.seen me = row.committed := by
  refine if_neg fun held => ?_
  obtain ⟨version, held⟩ := isHeldBy_iff.1 held
  exact foreign version held

/-- An update acts on what its transaction sees. -/
theorem latest_eq_seen (allowed : row.mayLock me) : row.latest = row.seen me := by
  cases held : row.held with
  | none => rw [latest_of_free held, seen_of_not_held (by rw [held]; exact fun _ => nofun)]
  | some version =>
    obtain ⟨owner, version⟩ := version
    obtain rfl := eq_of_mayLock allowed held
    rw [latest_of_held held, seen_of_held held]

/-- **What an update leaves** for its transaction to see. -/
theorem seen_write (written : row.write me change = some after) :
    after.seen me = change (row.seen me) := by
  rw [seen_of_held (held_write written), latest_eq_seen (write_eq_some.1 written).1]

@[simp] theorem seen_undo : (row.undo me).seen me = row.committed := by
  by_cases mine : row.isHeldBy me
  · exact seen_of_held (by rw [held_undo, if_pos mine])
  · rw [undo, if_neg mine, seen, if_neg mine]

@[simp] theorem seen_release : (row.release me).seen me = row.committed := by
  rw [seen_of_not_held fun _ => not_held_release, committed_release]

/-- A commit commits what the transaction sees. -/
@[simp] theorem committed_commit_eq_seen : (row.commit me).committed = row.seen me :=
  committed_commit

@[simp] theorem seen_commit : (row.commit me).seen me = row.seen me := by
  rw [seen_of_not_held fun _ => not_held_commit, committed_commit_eq_seen]

/-- Nobody sees another's update. -/
theorem seen_write_other (foreign : other ≠ me) (written : row.write me change = some after) :
    after.seen other = row.seen other := by
  obtain ⟨allowed, rfl⟩ := write_eq_some.1 written
  rw [seen_of_not_held (fun _ held => foreign (Prod.mk.inj (Option.some.inj held)).1.symm),
    seen_of_not_held (fun _ held => foreign (eq_of_mayLock allowed held))]

end RowLock

end SuiteCloud.Library
