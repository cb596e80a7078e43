/-
**Replacing managed DNS records.**

When does a host and type stay published while its owner's records are replaced, whatever fails and in
whatever order the push jobs run, and does a rollback leave the provider as it was?

### What is proved

* `Prepared` — up to the commit, and after a rollback, the provider's records of the place are the ones
  it held before, if each row that goes has its value in a row that stays.
* `Lasting` — after the commit a record that no new row refreshes outlives every push job.
* `stays_published_iff` — **the place stays published and a rollback restores it exactly when both
  conditions hold**. Where a row goes whose value no row keeps, its record is gone before the commit
  (`scan_deletes`); where every record is refreshed by a new row, the jobs can be between their deletes
  and creates all at once (`jobs_unpublish`).
* `spf_unpublished` — the SPF record of a zone when a sending address is added.
-/

import Mathlib.Data.List.Infix
import Mathlib.Data.List.Nodup
import SuiteCloud.Dns.Publishing
import SuiteCloud.Dns.Reconcile

namespace SuiteCloud.Dns

open SuiteCloud.Library

variable (site : Site)

/-! ### The condition -/

/-- The rows a call deletes. -/
def staleRows (table : Table) (owner : Owner) (desired : List Desired) : List Row :=
  stale (managedRows table.rows owner) (wantedRows site desired)

/-- The rows that stay. -/
def remainingRows (table : Table) (owner : Owner) (desired : List Desired) : List Row :=
  eraseRows table.rows (staleRows site table owner desired)

/-- The rows a call inserts, if none of them is refused. -/
def newRows (table : Table) (owner : Owner) (desired : List Desired) : List Row :=
  match insertAll site owner table.next (remainingRows site table owner desired)
    (left (managedRows table.rows owner) (wantedRows site desired)) with
  | .ok (_, docs) => docs
  | .error _ => []

/-- The row's push finds its value with another TTL, so it deletes and creates it. -/
def refreshes (remote : List RemoteRecord) (row : Row) : Bool :=
  site.hasProvider row.place.dnsZone && mxAllowed site row.place &&
    (findDnsRecord site remote row.place row.value).any fun record => record.ttl.getD 0 ≠ row.ttl

/-- A row that goes has its value in a row that stays, or there is nothing to delete. -/
def ValueKept (table : Table) (remote : List RemoteRecord) (owner : Owner) (desired : List Desired)
    (row : Row) : Prop :=
  (∃ other ∈ remainingRows site table owner desired,
    other.place = row.place ∧ other.value = row.value) ∨
  site.hasProvider row.place.dnsZone = false ∨ findDnsRecord site remote row.place row.value = none

/-- **The condition.** -/
structure Spared (table : Table) (remote : List RemoteRecord) (owner : Owner) (desired : List Desired)
    (place : Place) : Prop where
  kept : ∀ row ∈ staleRows site table owner desired, row.place = place →
    ValueKept site table remote owner desired row
  /-- The provider holds a record no new row refreshes. -/
  lasting : ∃ record ∈ readDnsRecords remote place, ∀ row ∈ newRows site table owner desired,
    row.place = place → hasValue site row.value record = true → refreshes site remote row = false

/-- **The place stays published**, and a rollback leaves the provider as it was. -/
def StaysPublished (table : Table) (remote : List RemoteRecord) (owner : Owner)
    (desired : List Desired) (place : Place) : Prop :=
  ∀ s, Reaches (step site owner table.rows) anyStep (State.start site table remote owner desired) s →
    readDnsRecords s.remote place ≠ [] ∧
      (s.control = .rolledBack → readDnsRecords s.remote place = readDnsRecords remote place)

variable {site}

/-! ### Deletes at the provider -/

section Deletes

variable {remote : List RemoteRecord} {place other : Place} {content : Option String} {text : String}

theorem readDnsRecords_deleteContent_of_ne (elsewhere : other ≠ place) :
    readDnsRecords (deleteContent remote other content) place = readDnsRecords remote place := by
  unfold readDnsRecords deleteContent
  rw [List.filter_filter]
  refine List.filter_congr fun record _ => ?_
  by_cases here : record.place = place
  · have differs : ¬ (place = other ∧ record.content = content) := fun both => elsewhere both.1.symm
    simp [here, differs]
  · simp [here]

theorem readDnsRecords_deleteContent_self :
    readDnsRecords (deleteContent remote place content) place =
      (readDnsRecords remote place).filter fun record => record.content ≠ content := by
  unfold readDnsRecords deleteContent
  rw [List.filter_filter, List.filter_filter]
  refine List.filter_congr fun record _ => ?_
  by_cases here : record.place = place
  · simp [here]
  · simp [here]

variable (site) in
/-- The records of a normalized value. -/
def valued (text : String) (records : List RemoteRecord) : List RemoteRecord :=
  records.filter fun record => normalizeValue site record.content = text

theorem valued_deleteContent (differs : other = place → normalizeValue site content ≠ text) :
    valued site text (readDnsRecords (deleteContent remote other content) place) =
      valued site text (readDnsRecords remote place) := by
  by_cases same : other = place
  · subst same
    rw [readDnsRecords_deleteContent_self, valued, valued, List.filter_filter]
    refine List.filter_congr fun record _ => ?_
    by_cases equal : record.content = content
    · simp [equal, differs rfl]
    · simp [equal]
  · rw [readDnsRecords_deleteContent_of_ne same]

theorem findDnsRecord_eq_head? (value : String) :
    findDnsRecord site remote place value =
      (valued site (normalizeValue site (some value)) (readDnsRecords remote place)).head? := by
  rw [findDnsRecord, valued, ← List.head?_filter]
  rfl

theorem normalizeValue_of_mem_contentsToDelete {value : String}
    (member : content ∈ contentsToDelete site remote place value) :
    normalizeValue site content = normalizeValue site (some value) := by
  obtain ⟨record, found, rfl⟩ := List.mem_map.mp member
  exact of_decide_eq_true (List.mem_filter.mp found).2

/-- The deletes of `delete_dns_record`, one after the other. -/
def deleteContents (remote : List RemoteRecord) (place : Place) (contents : List (Option String)) :
    List RemoteRecord :=
  contents.foldl (fun remote content => deleteContent remote place content) remote

theorem mem_of_mem_deleteContents {contents : List (Option String)} {record : RemoteRecord}
    (member : record ∈ deleteContents remote place contents) : record ∈ remote := by
  induction contents generalizing remote with
  | nil => exact member
  | cons first rest ih => exact (List.mem_filter.mp (ih member)).1

theorem readDnsRecords_deleteContents {contents : List (Option String)} :
    readDnsRecords (deleteContents remote place contents) place =
      (readDnsRecords remote place).filter fun record => record.content ∉ contents := by
  induction contents generalizing remote with
  | nil =>
    show readDnsRecords remote place = _
    rw [List.filter_eq_self.mpr]
    intro record _
    exact decide_eq_true List.not_mem_nil
  | cons first rest ih =>
    show readDnsRecords (deleteContents (deleteContent remote place first) place rest) place = _
    rw [ih, readDnsRecords_deleteContent_self, List.filter_filter]
    refine List.filter_congr fun record _ => ?_
    by_cases same : record.content = first
    · simp [same]
    · simp [same]

theorem readDnsRecords_deleted (value : String) :
    readDnsRecords (deleteContents remote place (contentsToDelete site remote place value)) place =
      (readDnsRecords remote place).filter fun record => ¬ hasValue site value record := by
  rw [readDnsRecords_deleteContents]
  refine List.filter_congr fun record member => ?_
  by_cases same : hasValue site value record = true
  · have listed : record.content ∈ contentsToDelete site remote place value :=
      List.mem_map.mpr ⟨record, List.mem_filter.mpr ⟨member, same⟩, rfl⟩
    simp [same, listed]
  · have unlisted : record.content ∉ contentsToDelete site remote place value :=
      fun listed => same (decide_eq_true (normalizeValue_of_mem_contentsToDelete listed))
    simp [same, unlisted]

end Deletes

/-! ### Up to the commit -/

section Transaction

variable (site) (table : Table) (remote : List RemoteRecord) (owner : Owner) (desired : List Desired)
  (place : Place)

/-- What the loop still has to do, with the rows there are. -/
structure Ahead (rows : List Row) (next : ℕ) (existing : List Row)
    (wanted : Dict (Place × String) Desired) : Prop where
  gone : ∀ row ∈ stale existing wanted, row ∈ staleRows site table owner desired
  remaining : eraseRows rows (stale existing wanted) = remainingRows site table owner desired
  left : left existing wanted = left (managedRows table.rows owner) (wantedRows site desired)
  next : next = table.next

/-- **The provider's records of the place are the ones it held before.** -/
def Untouched (s : State) : Prop := readDnsRecords s.remote place = readDnsRecords remote place

/-- **Up to the commit**, and after a rollback. -/
def Prepared (s : State) : Prop :=
  match s.control with
  | .scanning existing wanted =>
      Untouched remote place s ∧ Ahead site table owner desired s.rows s.next existing wanted
  | .deleting contents row existing wanted =>
      Untouched remote place s ∧ (row.place = place → contents = []) ∧
        Ahead site table owner desired (eraseRow s.rows row) s.next existing wanted
  | .returned =>
      Untouched remote place s ∧
        s.jobs = fun job => (newRows site table owner desired)[job]?.map (⟨·, .queued⟩)
  | .raised _ => Untouched remote place s
  | .committed => True
  | .rolledBack => Untouched remote place s

variable {site table remote owner desired place}
variable {rows existing : List Row} {next : ℕ} {row : Row} {wanted : Dict (Place × String) Desired}
variable {before : List Row} {s s' : State} {action : Action}

theorem Ahead.keep (ahead : Ahead site table owner desired rows next (row :: existing) wanted)
    (kept : row.key ∈ wanted.keys) :
    Ahead site table owner desired rows next existing (wanted.pop row.key) := by
  obtain ⟨gone, remaining, left, next⟩ := ahead
  simp only [stale, Dns.left, if_pos kept] at gone remaining left
  exact ⟨gone, remaining, left, next⟩

theorem Ahead.trash (ahead : Ahead site table owner desired rows next (row :: existing) wanted)
    (unwanted : row.key ∉ wanted.keys) :
    row ∈ staleRows site table owner desired ∧
      Ahead site table owner desired (eraseRow rows row) next existing wanted := by
  obtain ⟨gone, remaining, left, next⟩ := ahead
  simp only [stale, Dns.left, if_neg unwanted] at gone remaining left
  exact ⟨gone row List.mem_cons_self,
    fun other member => gone other (List.mem_cons_of_mem _ member), remaining, left, next⟩

theorem doomed_eq_nil (kept : ValueKept site table remote owner desired row)
    (ahead : Ahead site table owner desired (eraseRow rows row) next existing wanted) :
    doomed site rows remote row = [] := by
  unfold doomed
  split
  · rfl
  · rename_i unwanted
    rcases kept with ⟨other, stays, samePlace, sameValue⟩ | byHand | absent
    · rw [← ahead.remaining] at stays
      obtain ⟨member, named⟩ := List.mem_filter.mp (mem_eraseRows.mp stays).1
      refine absurd ?_ unwanted
      exact List.any_eq_true.mpr ⟨other, member, by simpa [samePlace, sameValue] using named⟩
    · rw [byHand]
      rfl
    · split
      · have none := List.find?_eq_none.mp absent
        rw [contentsToDelete, List.filter_eq_nil_iff.mpr none]
        rfl
      · rfl

theorem prepared_step
    (kept : ∀ row ∈ staleRows site table owner desired, row.place = place →
      ValueKept site table remote owner desired row)
    (prepared : Prepared site table remote owner desired place s)
    (steps : Steps site owner before s action s') :
    Prepared site table remote owner desired place s' := by
  cases steps with
  | keep row rest wanted here wantedKey =>
    simp only [Prepared, here] at prepared
    exact ⟨prepared.1, prepared.2.keep wantedKey⟩
  | trash row rest wanted here unwanted =>
    simp only [Prepared, here] at prepared
    obtain ⟨untouched, ahead⟩ := prepared
    obtain ⟨gone, ahead⟩ := ahead.trash unwanted
    refine ⟨untouched, ?_, ahead⟩
    intro atPlace
    refine doomed_eq_nil ?_ ahead
    have same : findDnsRecord site s.remote row.place row.value =
        findDnsRecord site remote row.place row.value := by
      rw [atPlace, findDnsRecord, findDnsRecord, untouched]
    rw [ValueKept, same]
    exact kept row gone atPlace
  | delete content contents row rest wanted here =>
    simp only [Prepared, here] at prepared
    obtain ⟨untouched, nothing, ahead⟩ := prepared
    have elsewhere : row.place ≠ place := fun atPlace => List.cons_ne_nil _ _ (nothing atPlace)
    refine ⟨?_, fun atPlace => absurd atPlace elsewhere, ahead⟩
    exact (readDnsRecords_deleteContent_of_ne elsewhere).trans untouched
  | deleted row rest wanted here =>
    simp only [Prepared, here] at prepared
    exact ⟨prepared.1, prepared.2.2⟩
  | insert wanted rows docs here result =>
    simp only [Prepared, here] at prepared
    obtain ⟨untouched, ahead⟩ := prepared
    refine ⟨untouched, ?_⟩
    have remaining : s.rows = remainingRows site table owner desired := ahead.remaining
    have left : wanted = left (managedRows table.rows owner) (wantedRows site desired) := ahead.left
    rw [remaining, left, ahead.next] at result
    simp only [newRows, result]
  | refuse wanted refused here result =>
    simp only [Prepared, here] at prepared
    exact prepared.1
  | skip content contents row rest wanted here =>
    simp only [Prepared, here] at prepared
    obtain ⟨untouched, nothing, ahead⟩ := prepared
    exact ⟨untouched, fun atPlace => absurd (nothing atPlace) (List.cons_ne_nil _ _), ahead⟩
  | commit here => trivial
  | rollback here =>
    rcases here with here | ⟨refused, here⟩
    · simp only [Prepared, here] at prepared
      exact prepared.1
    · simp only [Prepared, here] at prepared
      exact prepared
  | push id job remote push here there pushed => simp only [Prepared, here]
  | skipPush id row content contents here there => simp only [Prepared, here]
  | failPush id job here there => simp only [Prepared, here]

end Transaction

/-! ### After the commit -/

section Jobs

variable (site) (remote : List RemoteRecord) (place : Place) (text : String)

/-- **A job leaves the records of the value alone**: what it deletes has its own value, and one of that
value does not refresh. -/
structure Harmless (job : Job) : Prop where
  contents : ∀ contents, job.push = .deleting contents → ∀ content ∈ contents,
    normalizeValue site content = normalizeValue site (some job.row.value)
  idle : job.row.place = place → normalizeValue site (some job.row.value) = text →
    refreshes site remote job.row = false ∧
      (job.push = .queued ∨ job.push = .finished ∨ job.push = .failed)

/-- The provider still has the records of the value it had, first. -/
def Lasts (now : List RemoteRecord) : Prop :=
  valued site text (readDnsRecords remote place) <+: valued site text (readDnsRecords now place)

variable {site remote place text} {now after : List RemoteRecord} {row : Row} {push : Push}

theorem Harmless.elsewhere {job : Job} (harmless : Harmless site remote place text job)
    (begun : job.push ≠ .queued ∧ job.push ≠ .finished ∧ job.push ≠ .failed)
    (atPlace : job.row.place = place) : normalizeValue site (some job.row.value) ≠ text := by
  intro same
  rcases (harmless.idle atPlace same).2 with queued | finished | failed
  · exact begun.1 queued
  · exact begun.2.1 finished
  · exact begun.2.2 failed

theorem Lasts.find_eq (lasts : Lasts site remote place text now)
    (held : valued site text (readDnsRecords remote place) ≠ []) {value : String}
    (same : normalizeValue site (some value) = text) :
    findDnsRecord site now place value = findDnsRecord site remote place value := by
  rw [findDnsRecord_eq_head?, findDnsRecord_eq_head?, same]
  obtain ⟨more, added⟩ := lasts
  rw [← added, List.head?_append_of_ne_nil _ held]

theorem harmless_queued (harmless : Harmless site remote place text ⟨row, .queued⟩)
    (lasts : Lasts site remote place text now)
    (held : valued site text (readDnsRecords remote place) ≠ [])
    (pushed : pushStep site now row .queued = some (after, push)) :
    after = now ∧ Harmless site remote place text ⟨row, push⟩ := by
  have kept : after = now ∧ ∀ contents, push ≠ .deleting contents := by
    simp only [pushStep] at pushed
    repeat' split at pushed
    all_goals
      obtain ⟨rfl, rfl⟩ := Prod.mk.inj (Option.some.inj pushed)
      exact ⟨rfl, nofun⟩
  refine ⟨kept.1, fun contents deleting => absurd deleting (kept.2 contents), ?_⟩
  intro atPlace same
  have still := (harmless.idle atPlace same).1
  refine ⟨still, ?_⟩
  have found := lasts.find_eq held same
  simp only at atPlace same
  simp only [pushStep, atPlace, found] at pushed
  have head : ∃ record, findDnsRecord site remote place row.value = some record := by
    rw [findDnsRecord_eq_head?, same]
    exact Option.ne_none_iff_exists'.mp (mt List.head?_eq_none_iff.mp held)
  obtain ⟨record, head⟩ := head
  simp only [refreshes, atPlace, head, Option.any_some] at still
  simp only [head] at pushed
  by_cases provided : site.hasProvider place.dnsZone = true
  · rw [if_pos provided] at pushed
    by_cases sameTtl : record.ttl.getD 0 = row.ttl
    · rw [if_pos sameTtl] at pushed
      exact Or.inr (Or.inl (Prod.mk.inj (Option.some.inj pushed)).2.symm)
    · rw [if_neg sameTtl] at pushed
      by_cases allowed : mxAllowed site place = true
      · simp [provided, allowed, sameTtl] at still
      · rw [if_neg allowed] at pushed
        exact Or.inr (Or.inr (Prod.mk.inj (Option.some.inj pushed)).2.symm)
  · rw [if_neg provided] at pushed
    exact Or.inr (Or.inl (Prod.mk.inj (Option.some.inj pushed)).2.symm)

theorem harmless_push {job : Job} (harmless : Harmless site remote place text job)
    (lasts : Lasts site remote place text now)
    (held : valued site text (readDnsRecords remote place) ≠ [])
    (pushed : pushStep site now job.row job.push = some (after, push)) :
    Lasts site remote place text after ∧ Harmless site remote place text ⟨job.row, push⟩ := by
  obtain ⟨row, stage⟩ := job
  cases stage with
  | queued =>
    obtain ⟨rfl, still⟩ := harmless_queued harmless lasts held pushed
    exact ⟨lasts, still⟩
  | refreshing =>
    obtain ⟨rfl, rfl⟩ := Prod.mk.inj (Option.some.inj pushed)
    have elsewhere := harmless.elsewhere ⟨nofun, nofun, nofun⟩
    refine ⟨lasts, ?_, fun atPlace same => absurd same (elsewhere atPlace)⟩
    intro contents deleting content member
    obtain rfl := Push.deleting.inj deleting
    exact normalizeValue_of_mem_contentsToDelete member
  | deleting contents =>
    have elsewhere := harmless.elsewhere ⟨nofun, nofun, nofun⟩
    cases contents with
    | nil =>
      obtain ⟨rfl, rfl⟩ := Prod.mk.inj (Option.some.inj pushed)
      exact ⟨lasts, nofun, fun atPlace same => absurd same (elsewhere atPlace)⟩
    | cons content rest =>
      obtain ⟨rfl, rfl⟩ := Prod.mk.inj (Option.some.inj pushed)
      have own := harmless.contents _ rfl
      refine ⟨?_, ?_, fun atPlace same => absurd same (elsewhere atPlace)⟩
      · rw [Lasts, valued_deleteContent]
        · exact lasts
        · intro atPlace
          rw [own content List.mem_cons_self]
          exact elsewhere atPlace
      · intro contents deleting content' member
        obtain rfl := Push.deleting.inj deleting
        exact own content' (List.mem_cons_of_mem _ member)
  | creating =>
    have elsewhere := harmless.elsewhere ⟨nofun, nofun, nofun⟩
    simp only [pushStep] at pushed
    split at pushed
    · obtain ⟨rfl, rfl⟩ := Prod.mk.inj (Option.some.inj pushed)
      refine ⟨?_, nofun, fun atPlace same => absurd same (elsewhere atPlace)⟩
      have added : valued site text (readDnsRecords (now ++ [created site row]) place) =
          valued site text (readDnsRecords now place) ++
            valued site text (readDnsRecords [created site row] place) := by
        simp only [valued, readDnsRecords, List.filter_append]
      rw [Lasts, added]
      exact lasts.trans (List.prefix_append _ _)
    · obtain ⟨rfl, rfl⟩ := Prod.mk.inj (Option.some.inj pushed)
      exact ⟨lasts, nofun, fun atPlace same => absurd same (elsewhere atPlace)⟩
  | finished => cases pushed
  | failed => cases pushed

end Jobs

/-! ### The condition is enough -/

section Enough

variable {table : Table} {remote : List RemoteRecord} {owner : Owner} {desired : List Desired}
  {place : Place} {text : String} {before : List Row} {s s' : State} {action : Action}

variable (site table remote owner desired place text) in
/-- **A record of the value lasts**: up to the commit everything does, and then no job touches it. -/
structure Lasting (s : State) : Prop where
  prepared : Prepared site table remote owner desired place s
  jobs : s.control = .committed → Lasts site remote place text s.remote ∧
    ∀ {id job}, s.jobs id = some job → Harmless site remote place text job

theorem lasting_step (spared : Spared site table remote owner desired place)
    (held : valued site text (readDnsRecords remote place) ≠ [])
    (unrefreshed : ∀ row ∈ newRows site table owner desired, row.place = place →
      normalizeValue site (some row.value) = text → refreshes site remote row = false)
    (lasting : Lasting site table remote owner desired place text s)
    (steps : Steps site owner before s action s') :
    Lasting site table remote owner desired place text s' := by
  refine ⟨prepared_step spared.kept lasting.prepared steps, ?_⟩
  intro committed
  cases steps with
  | commit here =>
    have prepared := lasting.prepared
    simp only [Prepared, here] at prepared
    obtain ⟨untouched, jobs⟩ := prepared
    refine ⟨?_, ?_⟩
    · show valued site text (readDnsRecords remote place) <+:
        valued site text (readDnsRecords s.remote place)
      rw [untouched]
    · intro id job there
      simp only [jobs] at there
      obtain ⟨row, member, rfl⟩ := Option.map_eq_some_iff.mp there
      refine ⟨nofun, fun atPlace same => ⟨?_, Or.inl rfl⟩⟩
      exact unrefreshed row (List.mem_of_getElem? member) atPlace same
  | push id job after push here there pushed =>
    obtain ⟨lasts, harmless⟩ := lasting.jobs here
    obtain ⟨still, own⟩ := harmless_push (harmless there) lasts held pushed
    refine ⟨still, ?_⟩
    intro other found there'
    rcases update_eq_some there' with ⟨-, rfl⟩ | ⟨-, there'⟩
    · exact own
    · exact harmless there'
  | skipPush id row content contents here there =>
    obtain ⟨lasts, harmless⟩ := lasting.jobs here
    refine ⟨lasts, ?_⟩
    intro other found there'
    rcases update_eq_some there' with ⟨-, rfl⟩ | ⟨-, there'⟩
    · have own := harmless there
      refine ⟨?_, fun atPlace same => absurd same (own.elsewhere ⟨nofun, nofun, nofun⟩ atPlace)⟩
      intro found deleting content' member
      obtain rfl := Push.deleting.inj deleting
      exact own.contents _ rfl content' (List.mem_cons_of_mem _ member)
    · exact harmless there'
  | failPush id job here there =>
    obtain ⟨lasts, harmless⟩ := lasting.jobs here
    refine ⟨lasts, ?_⟩
    intro other found there'
    rcases update_eq_some there' with ⟨-, rfl⟩ | ⟨-, there'⟩
    · exact ⟨nofun, fun atPlace same => ⟨((harmless there).idle atPlace same).1, Or.inr (Or.inr rfl)⟩⟩
    · exact harmless there'
  | keep row rest wanted here wantedKey => cases committed
  | trash row rest wanted here unwanted => cases committed
  | delete content contents row rest wanted here => cases committed
  | deleted row rest wanted here => cases committed
  | insert wanted rows docs here result => cases committed
  | refuse wanted refused here result => cases committed
  | skip content contents row rest wanted here => cases committed
  | rollback here => cases committed

theorem prepared_start :
    Prepared site table remote owner desired place (State.start site table remote owner desired) :=
  ⟨rfl, fun _ member => member, rfl, rfl, rfl⟩

theorem Prepared.untouched (prepared : Prepared site table remote owner desired place s)
    (pending : s.control ≠ .committed) : Untouched remote place s := by
  unfold Prepared at prepared
  split at prepared
  case h_1 => exact prepared.1
  case h_2 => exact prepared.1
  case h_3 => exact prepared.1
  case h_4 => exact prepared
  case h_5 here => exact absurd here pending
  case h_6 => exact prepared

theorem Spared.staysPublished (spared : Spared site table remote owner desired place) :
    StaysPublished site table remote owner desired place := by
  obtain ⟨record, member, unrefreshed⟩ := spared.lasting
  have held : valued site (normalizeValue site record.content) (readDnsRecords remote place) ≠ [] :=
    List.ne_nil_of_mem (List.mem_filter.mpr ⟨member, decide_eq_true rfl⟩)
  intro s reached
  have lasting : Lasting site table remote owner desired place (normalizeValue site record.content)
      s := by
    refine reached.invariant
      (Lasting site table remote owner desired place (normalizeValue site record.content)) ?_ ?_
    · exact ⟨prepared_start, nofun⟩
    · intro here there action lasting _ taken
      refine lasting_step spared held ?_ lasting (steps_of_step taken)
      intro row new atPlace same
      exact unrefreshed row new atPlace (decide_eq_true same.symm)
  by_cases committed : s.control = .committed
  · obtain ⟨lasts, -⟩ := lasting.jobs committed
    refine ⟨?_, fun rolledBack => absurd (committed.symm.trans rolledBack) nofun⟩
    intro empty
    rw [Lasts, empty] at lasts
    exact held (List.prefix_nil.mp lasts)
  · have untouched := lasting.prepared.untouched committed
    refine ⟨?_, fun _ => untouched⟩
    rw [untouched]
    exact List.ne_nil_of_mem member

end Enough

/-! ### The condition is necessary: rows that go -/

section Necessary

variable {table : Table} {remote : List RemoteRecord} {owner : Owner} {desired : List Desired}
  {place : Place} {before : List Row}

theorem trash_deletes {row : Row} {existing : List Row} {wanted : Dict (Place × String) Desired}
    (contents : List (Option String)) (s : State)
    (here : s.control = .deleting contents row existing wanted) :
    Reaches (step site owner before) anyStep s { s with
      rows := eraseRow s.rows row
      remote := deleteContents s.remote row.place contents
      control := .scanning existing wanted } := by
  induction contents generalizing s with
  | nil => exact .single .next trivial (step_of_steps (.deleted row existing wanted here))
  | cons content rest ih =>
    refine Reaches.trans (.single .next trivial ?_) (ih { s with
      remote := deleteContent s.remote row.place content
      control := .deleting rest row existing wanted } rfl)
    exact step_of_steps (.delete content rest row existing wanted here)

theorem doomed_deletes {rows : List Row} {now : List RemoteRecord} {row : Row} {record : RemoteRecord}
    (provided : site.hasProvider row.place.dnsZone = true) (unwanted : ¬ stillWanted rows row = true)
    (held : record ∈ deleteContents now row.place (doomed site rows now row))
    (atPlace : record.place = row.place) : ¬ hasValue site row.value record = true := by
  rw [doomed, if_neg unwanted, if_pos provided] at held
  have read : record ∈ readDnsRecords (deleteContents now row.place
      (contentsToDelete site now row.place row.value)) row.place :=
    List.mem_filter.mpr ⟨held, decide_eq_true atPlace⟩
  rw [readDnsRecords_deleted] at read
  exact of_decide_eq_true (List.mem_filter.mp read).2

theorem goes_later {rows gone : List Row} {row : Row} (unique : (rows.map Row.name).Nodup)
    (among : ∀ other ∈ gone, other ∈ rows) (wanted : stillWanted rows row = true)
    (alone : ∀ other ∈ eraseRows (eraseRow rows row) gone,
      ¬ (other.place = row.place ∧ other.value = row.value)) :
    ∃ other ∈ gone, other.place = row.place ∧ other.value = row.value := by
  obtain ⟨other, member, same⟩ := List.any_eq_true.mp wanted
  obtain ⟨named, same⟩ := of_decide_eq_true same
  have erased : other ∈ eraseRow rows row := List.mem_filter.mpr ⟨member, decide_eq_true named⟩
  by_contra none
  refine alone other (mem_eraseRows.mpr ⟨erased, ?_⟩) same
  intro found later sameName
  obtain rfl := List.inj_on_of_nodup_map unique member (among found later) sameName
  exact none ⟨other, later, same⟩

theorem sublist_eraseRow {rows rest : List Row} {row : Row} (among : (row :: rest).Sublist rows)
    (unique : (rows.map Row.name).Nodup) : rest.Sublist (eraseRow rows row) := by
  have names : ∀ other ∈ rest, other.name ≠ row.name := by
    have distinct := (among.map Row.name).nodup unique
    intro other member same
    exact (List.nodup_cons.mp distinct).1 (same ▸ List.mem_map_of_mem member)
  have filtered : (row :: rest).filter (fun other => other.name ≠ row.name) = rest := by
    rw [List.filter_cons_of_neg (by simp)]
    exact List.filter_eq_self.mpr fun other member => decide_eq_true (names other member)
  exact filtered ▸ among.filter _

/-- **The first loop to its end**, with no delete failing: the stale rows are gone, and so is the
record of each whose value no row keeps. -/
theorem scan_deletes (existing : List Row) (wanted : Dict (Place × String) Desired) (s : State)
    (here : s.control = .scanning existing wanted) (among : existing.Sublist s.rows)
    (unique : (s.rows.map Row.name).Nodup) :
    ∃ after : List RemoteRecord, (∀ record ∈ after, record ∈ s.remote) ∧
      Reaches (step site owner before) anyStep s { s with
        rows := eraseRows s.rows (stale existing wanted)
        remote := after
        control := .scanning [] (left existing wanted) } ∧
      ∀ row ∈ stale existing wanted, site.hasProvider row.place.dnsZone = true →
        (∀ other ∈ eraseRows s.rows (stale existing wanted),
          ¬ (other.place = row.place ∧ other.value = row.value)) →
        ∀ record ∈ after, record.place = row.place → ¬ hasValue site row.value record = true := by
  induction existing generalizing wanted s with
  | nil =>
    refine ⟨s.remote, fun _ member => member, ?_, nofun⟩
    have same : { s with control := .scanning [] wanted } = s := by rw [← here]
    show Reaches _ _ s { s with control := .scanning [] wanted }
    rw [same]
    exact .start
  | cons row rest ih =>
    by_cases kept : row.key ∈ wanted.keys
    · simp only [stale, left, if_pos kept]
      obtain ⟨after, fewer, reaches, gone⟩ := ih (wanted.pop row.key)
        { s with control := .scanning rest (wanted.pop row.key) } rfl
        ((List.sublist_cons_self _ _).trans among) unique
      refine ⟨after, fewer, Reaches.trans (.single .next trivial ?_) reaches, gone⟩
      exact step_of_steps (.keep row rest wanted here kept)
    · simp only [stale, left, if_neg kept]
      obtain ⟨after, fewer, reaches, gone⟩ := ih wanted
        { s with
          rows := eraseRow s.rows row
          remote := deleteContents s.remote row.place (doomed site s.rows s.remote row)
          control := .scanning rest wanted } rfl (sublist_eraseRow among unique)
        (unique.sublist (List.filter_sublist.map _))
      refine ⟨after, fun record member => mem_of_mem_deleteContents (fewer record member), ?_, ?_⟩
      · refine Reaches.trans (.single .next trivial ?_) (Reaches.trans (trash_deletes _
          { s with control := .deleting (doomed site s.rows s.remote row) row rest wanted } rfl) reaches)
        exact step_of_steps (.trash row rest wanted here kept)
      · intro found member provided alone record held atPlace
        rcases List.mem_cons.mp member with rfl | member
        · by_cases elsewhere : stillWanted s.rows found = true
          · obtain ⟨other, later, samePlace, sameValue⟩ := goes_later unique
              (fun other later => among.subset (List.mem_cons_of_mem _ (mem_of_mem_stale later)))
              elsewhere alone
            have goneLater := gone other later (samePlace ▸ provided)
              (by rw [samePlace, sameValue]; exact alone) record held (atPlace.trans samePlace.symm)
            exact sameValue ▸ goneLater
          · exact doomed_deletes provided elsewhere (fewer record held) atPlace
        · exact gone found member provided alone record held atPlace

theorem scanned_rolls_back {wanted : Dict (Place × String) Desired} (s : State)
    (here : s.control = .scanning [] wanted) :
    ∃ s', Reaches (step site owner before) anyStep s s' ∧ s'.control = .rolledBack ∧
      s'.remote = s.remote := by
  cases result : insertAll site owner s.next s.rows wanted with
  | error refused =>
    have raises : step site owner before s .next = some { s with control := .raised refused } :=
      step_of_steps (.refuse wanted refused here result)
    have rolled : Steps site owner before { s with control := .raised refused } .rollback _ :=
      .rollback (Or.inr ⟨refused, rfl⟩)
    exact ⟨_, .next (.single .next trivial raises) trivial (step_of_steps rolled), rfl, rfl⟩
  | ok both =>
    have returns : Steps site owner before s .next _ := .insert wanted both.1 both.2 here result
    refine ⟨_, .next (.single .next trivial (step_of_steps returns)) trivial
      (step_of_steps (.rollback (Or.inl rfl))), ?_, ?_⟩
    · rfl
    · rfl

theorem start_scans (site : Site) (table : Table) (remote : List RemoteRecord) (owner : Owner)
    (desired : List Desired) :
    ∃ s, Reaches (step site owner table.rows) anyStep (State.start site table remote owner desired) s ∧
      s.control = .scanning [] (left (managedRows table.rows owner) (wantedRows site desired)) ∧
      s.rows = remainingRows site table owner desired ∧ s.next = table.next ∧
      ∀ row ∈ staleRows site table owner desired, site.hasProvider row.place.dnsZone = true →
        (∀ other ∈ remainingRows site table owner desired,
          ¬ (other.place = row.place ∧ other.value = row.value)) →
        ∀ record ∈ s.remote, record.place = row.place → ¬ hasValue site row.value record = true := by
  obtain ⟨after, -, reaches, gone⟩ := scan_deletes (managedRows table.rows owner)
    (wantedRows site desired) (State.start site table remote owner desired) rfl List.filter_sublist
    table.unique
  exact ⟨_, reaches, rfl, rfl, rfl, gone⟩

theorem reconcile_returns {after : Table} (done : table.reconcile site owner desired = .ok after) :
    ∃ s, Reaches (step site owner table.rows) anyStep (State.start site table remote owner desired) s ∧
      s.control = .returned ∧ s.rows = after.rows := by
  obtain ⟨s, scans, here, remaining, next, -⟩ := start_scans site table remote owner desired
  simp only [Table.reconcile] at done
  split at done
  · cases done
  · rename_i rows docs result
    obtain rfl := Except.ok.inj done
    rw [remainingRows, staleRows] at remaining
    rw [← remaining, ← next] at result
    exact ⟨_, .next scans trivial (step_of_steps (.insert _ rows docs here result)), rfl, rfl⟩

theorem valueKept_of_staysPublished (stays : StaysPublished site table remote owner desired place) :
    ∀ row ∈ staleRows site table owner desired, row.place = place →
      ValueKept site table remote owner desired row := by
  intro row goes atPlace
  by_contra lost
  simp only [ValueKept, not_or, not_exists, not_and] at lost
  obtain ⟨alone, provided, present⟩ := lost
  obtain ⟨record, found⟩ := Option.ne_none_iff_exists'.mp present
  have held : record ∈ readDnsRecords remote place := atPlace ▸ List.mem_of_find?_eq_some found
  have valued : hasValue site row.value record = true := List.find?_some found
  obtain ⟨s, scans, here, -, -, gone⟩ := start_scans site table remote owner desired
  obtain ⟨s', rolls, rolledBack, sameRemote⟩ := scanned_rolls_back s here
  have restored := (stays s' (scans.trans rolls)).2 rolledBack
  rw [← restored, sameRemote] at held
  obtain ⟨member, there⟩ := List.mem_filter.mp held
  exact gone row goes (by simpa using provided) (fun other remains same => alone other remains same.1
    same.2) record member ((of_decide_eq_true there).trans atPlace.symm) valued

/-! ### The condition is necessary: rows that are refreshed -/

theorem pushStep_of_refreshes {now : List RemoteRecord} {row : Row}
    (refreshed : refreshes site now row = true) :
    pushStep site now row .queued = some (now, .refreshing) := by
  simp only [refreshes, Bool.and_eq_true, Option.any_eq_true, decide_eq_true_iff] at refreshed
  obtain ⟨⟨provided, allowed⟩, record, found, otherTtl⟩ := refreshed
  simp only [pushStep, if_pos provided, found, if_neg otherTtl, if_pos allowed]

/-- The state after a job's step. -/
def State.pushed (s : State) (id : ℕ) (row : Row) (after : List RemoteRecord) (push : Push) : State :=
  { s with remote := after, jobs := Function.update s.jobs id (some ⟨row, push⟩) }

theorem State.pushed_pushed (s : State) (id : ℕ) (row : Row) (now after : List RemoteRecord)
    (push push' : Push) :
    (s.pushed id row now push).pushed id row after push' = s.pushed id row after push' := by
  simp only [State.pushed, Function.update_idem]

theorem State.pushed_self {s : State} {id : ℕ} {row : Row} {push : Push}
    (here : s.jobs id = some ⟨row, push⟩) : s.pushed id row s.remote push = s := by
  simp only [State.pushed, ← here, Function.update_eq_self]

variable (site owner before) in
theorem job_deletes {id : ℕ} {row : Row} (contents : List (Option String)) (s : State)
    (committed : s.control = .committed) (here : s.jobs id = some ⟨row, .deleting contents⟩) :
    Reaches (step site owner before) anyStep s
      (s.pushed id row (deleteContents s.remote row.place contents) (.deleting [])) := by
  induction contents generalizing s with
  | nil =>
    show Reaches _ _ s (s.pushed id row s.remote (.deleting []))
    rw [State.pushed_self here]
    exact .start
  | cons content rest ih =>
    have first : step site owner before s (.push id) =
        some (s.pushed id row (deleteContent s.remote row.place content) (.deleting rest)) :=
      step_of_steps (.push id ⟨row, .deleting (content :: rest)⟩ _ _ committed here rfl)
    have later := ih (s.pushed id row (deleteContent s.remote row.place content) (.deleting rest))
      committed (Function.update_self _ _ _)
    rw [State.pushed_pushed] at later
    exact Reaches.trans (.single (.push id) trivial first) later

theorem refresh_deletes {id : ℕ} {row : Row} (s : State) (committed : s.control = .committed)
    (here : s.jobs id = some ⟨row, .queued⟩) (refreshed : refreshes site s.remote row = true) :
    Reaches (step site owner before) anyStep s
      (s.pushed id row
        (deleteContents s.remote row.place (contentsToDelete site s.remote row.place row.value))
        (.deleting [])) := by
  have finds : step site owner before s (.push id) = some (s.pushed id row s.remote .refreshing) :=
    step_of_steps (.push id ⟨row, .queued⟩ s.remote .refreshing committed here
      (pushStep_of_refreshes refreshed))
  have reads : step site owner before (s.pushed id row s.remote .refreshing) (.push id) =
      some ((s.pushed id row s.remote .refreshing).pushed id row s.remote
        (.deleting (contentsToDelete site s.remote row.place row.value))) :=
    step_of_steps (.push id ⟨row, .refreshing⟩ s.remote _ committed (Function.update_self _ _ _) rfl)
  rw [State.pushed_pushed] at reads
  have deletes := job_deletes site owner before (contentsToDelete site s.remote row.place row.value)
    (s.pushed id row s.remote (.deleting (contentsToDelete site s.remote row.place row.value)))
    committed (Function.update_self _ _ _)
  rw [State.pushed_pushed] at deletes
  exact Reaches.trans (.next (.single (.push id) trivial finds) trivial reads) deletes

theorem refreshes_deleted {now : List RemoteRecord} {row other : Row} (samePlace : other.place = row.place)
    (differs : normalizeValue site (some other.value) ≠ normalizeValue site (some row.value)) :
    refreshes site (deleteContents now row.place (contentsToDelete site now row.place row.value)) other =
      refreshes site now other := by
  have found : findDnsRecord site
      (deleteContents now row.place (contentsToDelete site now row.place row.value)) row.place
      other.value = findDnsRecord site now row.place other.value := by
    rw [findDnsRecord, readDnsRecords_deleted, List.find?_filter, findDnsRecord]
    congr 1
    funext record
    by_cases own : normalizeValue site record.content = normalizeValue site (some other.value)
    · have notRow : ¬ normalizeValue site record.content = normalizeValue site (some row.value) :=
        fun same => differs (own.symm.trans same)
      simp [hasValue, own, differs]
    · simp [hasValue, own]
  rw [refreshes, refreshes, samePlace, found]

variable (site place) in
/-- Each record of the place is refreshed by a job that has not begun. -/
def AllRefreshed (s : State) : Prop :=
  ∀ record ∈ readDnsRecords s.remote place, ∃ id row, s.jobs id = some ⟨row, .queued⟩ ∧
    row.place = place ∧ hasValue site row.value record = true ∧ refreshes site s.remote row = true

theorem AllRefreshed.pushed {id : ℕ} {row : Row} {s : State} (refreshed : AllRefreshed site row.place s)
    (here : s.jobs id = some ⟨row, .queued⟩) :
    AllRefreshed site row.place (s.pushed id row
      (deleteContents s.remote row.place (contentsToDelete site s.remote row.place row.value))
      (.deleting [])) := by
  intro record there
  have there : record ∈ (readDnsRecords s.remote row.place).filter
      fun found => ¬ hasValue site row.value found := readDnsRecords_deleted row.value ▸ there
  obtain ⟨there, otherValue⟩ := List.mem_filter.mp there
  obtain ⟨id', row', here', samePlace, own, refresh⟩ := refreshed record there
  -- Another value, so another job.
  have differs : normalizeValue site (some row'.value) ≠ normalizeValue site (some row.value) := by
    intro same
    refine of_decide_eq_true otherValue (decide_eq_true ?_)
    exact (of_decide_eq_true own).trans same
  have another : id' ≠ id := by
    rintro rfl
    rw [here] at here'
    exact differs (by rw [(Job.mk.inj (Option.some.inj here')).1])
  refine ⟨id', row', (Function.update_of_ne another _ _).trans here', samePlace, own, ?_⟩
  exact (refreshes_deleted samePlace differs).trans refresh

/-- **Jobs that refresh every record of the place can all be between their deletes and creates.** -/
theorem jobs_unpublish (bound : ℕ) (s : State) (committed : s.control = .committed)
    (few : (readDnsRecords s.remote place).length ≤ bound) (refreshed : AllRefreshed site place s) :
    ∃ s', Reaches (step site owner before) anyStep s s' ∧ readDnsRecords s'.remote place = [] := by
  induction bound generalizing s with
  | zero => exact ⟨s, .start, List.length_eq_zero_iff.mp (Nat.le_zero.mp few)⟩
  | succ bound ih =>
    cases records : readDnsRecords s.remote place with
    | nil => exact ⟨s, .start, records⟩
    | cons record rest =>
      have member : record ∈ readDnsRecords s.remote place := records ▸ List.mem_cons_self
      obtain ⟨id, row, here, rfl, own, refresh⟩ := refreshed record member
      have fewer : (readDnsRecords (deleteContents s.remote row.place
          (contentsToDelete site s.remote row.place row.value)) row.place).length ≤ bound := by
        rw [readDnsRecords_deleted]
        refine Nat.le_of_lt_succ (Nat.lt_of_lt_of_le ?_ few)
        exact List.length_filter_lt_length_iff_exists.mpr ⟨record, member, by simp [own]⟩
      obtain ⟨s', reaches, empty⟩ := ih (s.pushed id row (deleteContents s.remote row.place
        (contentsToDelete site s.remote row.place row.value)) (.deleting [])) committed fewer
        (refreshed.pushed here)
      exact ⟨s', Reaches.trans (refresh_deletes s committed here refresh) reaches, empty⟩

theorem start_commits (stays : StaysPublished site table remote owner desired place) {row : Row}
    (new : row ∈ newRows site table owner desired) :
    ∃ s, Reaches (step site owner table.rows) anyStep (State.start site table remote owner desired) s ∧
      s.control = .committed ∧ Untouched remote place s ∧
      s.jobs = fun job => (newRows site table owner desired)[job]?.map (⟨·, .queued⟩) := by
  obtain ⟨s, scans, here, remaining, next, -⟩ := start_scans site table remote owner desired
  have prepared : Prepared site table remote owner desired place s := by
    refine scans.invariant (Prepared site table remote owner desired place) prepared_start ?_
    intro here there action prepared _ taken
    exact prepared_step (valueKept_of_staysPublished stays) prepared (steps_of_step taken)
  have untouched : Untouched remote place s :=
    prepared.untouched fun committed => by rw [here] at committed; cases committed
  cases result : insertAll site owner table.next (remainingRows site table owner desired)
      (left (managedRows table.rows owner) (wantedRows site desired)) with
  | error refused =>
    simp only [newRows, result] at new
    cases new
  | ok both =>
    have inserted : newRows site table owner desired = both.2 := by simp only [newRows, result]
    rw [inserted]
    rw [← remaining, ← next] at result
    have returns : Steps site owner table.rows s .next _ := .insert _ both.1 both.2 here result
    have returned := Reaches.next scans trivial (step_of_steps returns)
    exact ⟨_, .next returned trivial (step_of_steps (.commit rfl)), rfl, untouched, rfl⟩

theorem lasting_of_staysPublished (stays : StaysPublished site table remote owner desired place) :
    ∃ record ∈ readDnsRecords remote place, ∀ row ∈ newRows site table owner desired,
      row.place = place → hasValue site row.value record = true →
      refreshes site remote row = false := by
  by_contra every
  simp only [not_exists, not_and, not_forall, Bool.not_eq_false] at every
  obtain ⟨record, member⟩ := List.exists_mem_of_ne_nil _ (stays _ .start).1
  obtain ⟨row, new, -⟩ := every record member
  obtain ⟨s, reached, committed, untouched, jobs⟩ := start_commits stays new
  have refreshed : AllRefreshed site place s := by
    intro record there
    rw [untouched] at there
    obtain ⟨row, new, atPlace, own, refresh⟩ := every record there
    obtain ⟨id, here⟩ := List.mem_iff_getElem?.mp new
    refine ⟨id, row, ?_, atPlace, own, ?_⟩
    · rw [jobs]
      simp only [here, Option.map_some]
    · subst atPlace
      rw [← refresh, refreshes, refreshes, findDnsRecord, findDnsRecord, untouched]
  obtain ⟨s', reaches, empty⟩ := jobs_unpublish _ s committed (Nat.le_refl _) refreshed
  exact (stays s' (reached.trans reaches)).1 empty

end Necessary

/-- **A place stays published while its records are replaced**, at every step up to and including the
push jobs, and a rollback leaves the provider as it was, exactly when every row that goes there has its
value in a row that stays, or no record to delete, and the provider holds a record there that no new
row refreshes. -/
theorem stays_published_iff (site : Site) (table : Table) (remote : List RemoteRecord) (owner : Owner)
    (desired : List Desired) (place : Place) :
    StaysPublished site table remote owner desired place ↔
      Spared site table remote owner desired place :=
  ⟨fun stays => ⟨valueKept_of_staysPublished stays, lasting_of_staysPublished stays⟩,
    Spared.staysPublished⟩

/-! ### The SPF record of a zone -/

def spfPlace : Place := ⟨"example.com", "spf", .txt⟩

def spfOwner : Owner := ⟨"Stalwart Cluster", "c1"⟩

/-- The cluster's SPF record lists one address. -/
def spfTable : Table where
  rows := [⟨0, spfPlace, "v=spf1 ip4:192.0.2.1 -all", .spf, 0, 300, some spfOwner⟩]
  next := 1
  unique := by decide
  named := by decide

def spfRemote : List RemoteRecord :=
  [⟨spfPlace, some "\"v=spf1 ip4:192.0.2.1 -all\"", some 300, 0⟩]

/-- A second address sends. -/
def spfDesired : List Desired :=
  [{ place := spfPlace, value := "v=spf1 ip4:192.0.2.1 ip4:192.0.2.2 -all", category := .spf }]

/-- **The SPF record of a zone is gone when a sending address is added**: the provider holds what the
owner had, the owner still wants a record there, and the old one is deleted before the new one's push
can run. -/
theorem spf_unpublished :
    ¬ ∀ (site : Site) (table : Table) (remote : List RemoteRecord) (owner : Owner)
      (desired : List Desired) (place : Place),
      (∃ row ∈ managedRows table.rows owner, row.place = place) →
      (∀ row ∈ managedRows table.rows owner, row.place = place →
        (findDnsRecord site remote place row.value).isSome = true) →
      (∃ row ∈ desired, (row.key site).1 = place) →
      StaysPublished site table remote owner desired place := by
  intro always
  have seen : ((∃ row ∈ managedRows spfTable.rows spfOwner, row.place = spfPlace) ∧
        (∀ row ∈ managedRows spfTable.rows spfOwner, row.place = spfPlace →
          (findDnsRecord oneZone spfRemote spfPlace row.value).isSome = true) ∧
        ∃ row ∈ spfDesired, (row.key oneZone).1 = spfPlace) ∧
      (run (step oneZone spfOwner spfTable.rows)
        (State.start oneZone spfTable spfRemote spfOwner spfDesired) [.next, .next]).map
        (fun s => readDnsRecords s.remote spfPlace) = some [] := by decide +kernel
  obtain ⟨⟨there, found, wanted⟩, seen⟩ := seen
  have stays := always oneZone spfTable spfRemote spfOwner spfDesired spfPlace there found wanted
  obtain ⟨s, ends, empty⟩ := Option.map_eq_some_iff.mp seen
  exact (stays s (reaches_of_run (runMeets_of_forall fun _ _ _ => trivial) ends)).1 empty

end SuiteCloud.Dns
