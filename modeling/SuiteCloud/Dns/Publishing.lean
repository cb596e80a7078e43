/-
**What the provider holds while an owner's records are replaced.**

One call of `reconcile_managed_records` in its transaction, and the push jobs its new rows queue for
after the commit. A row's `on_trash` deletes at the provider at once, inside the transaction; a new row
is pushed by a job. Each delete and each create is a step of its own, a delete may fail (it is
swallowed) and so may a job, and the jobs run in any interleaving.
-/

import Mathlib.Logic.Function.Basic
import SuiteCloud.Dns.Record
import SuiteCloud.Library.Maps
import SuiteCloud.Library.Transition

namespace SuiteCloud.Dns

open SuiteCloud.Library

/-- Where a push job stands. -/
inductive Push
  | queued
  /-- It found its value with another TTL. -/
  | refreshing
  | deleting (contents : List (Option String))
  | creating
  | finished
  | failed
  deriving DecidableEq

structure Job where
  row : Row
  push : Push
  deriving DecidableEq

/-- Where the transaction stands. -/
inductive Control
  | scanning (existing : List Row) (wanted : Dict (Place × String) Desired)
  /-- The row's `on_trash` deletes at the provider. -/
  | deleting (contents : List (Option String)) (row : Row) (existing : List Row)
      (wanted : Dict (Place × String) Desired)
  | returned
  | raised (refused : Refused)
  | committed
  | rolledBack
  deriving DecidableEq

structure State where
  rows : List Row
  remote : List RemoteRecord
  /-- The next name a row gets. -/
  next : ℕ
  control : Control
  jobs : ℕ → Option Job

/-- The call begins. -/
def State.start (site : Site) (table : Table) (remote : List RemoteRecord) (owner : Owner)
    (desired : List Desired) : State where
  rows := table.rows
  remote := remote
  next := table.next
  control := .scanning (managedRows table.rows owner) (wantedRows site desired)
  jobs := fun _ => none

inductive Action
  /-- The call goes on. -/
  | next
  /-- A delete at the provider fails. -/
  | skip
  | commit
  | rollback
  /-- A push job goes on. -/
  | push (job : ℕ)
  | skipPush (job : ℕ)
  | failPush (job : ℕ)

variable (site : Site)

/-- What `delete_from_provider` deletes. -/
def doomed (rows : List Row) (remote : List RemoteRecord) (row : Row) : List (Option String) :=
  if stillWanted rows row then []
  else if site.hasProvider row.place.dnsZone then contentsToDelete site remote row.place row.value
  else []

/-- The record a push creates. -/
def created (row : Row) : RemoteRecord :=
  ⟨row.place, some (site.stored row.place.recordType row.value), some row.ttl, row.priority⟩

/-- **One step of `create_or_update_record_in_dns_provider`.** -/
def pushStep (remote : List RemoteRecord) (row : Row) : Push → Option (List RemoteRecord × Push)
  | .queued =>
      if site.hasProvider row.place.dnsZone then
        match findDnsRecord site remote row.place row.value with
        | none => some (remote, .creating)
        | some record =>
            if record.ttl.getD 0 = row.ttl then some (remote, .finished)
            else if mxAllowed site row.place then some (remote, .refreshing)
            else some (remote, .failed)
      else some (remote, .finished)
  | .refreshing => some (remote, .deleting (contentsToDelete site remote row.place row.value))
  | .deleting (content :: contents) =>
      some (deleteContent remote row.place content, .deleting contents)
  | .deleting [] => some (remote, .creating)
  | .creating =>
      if mxAllowed site row.place then some (remote ++ [created site row], .finished)
      else some (remote, .failed)
  | .finished => none
  | .failed => none

/-- **One step** of the call, its transaction or a push job. -/
def step (owner : Owner) (before : List Row) (s : State) : Action → Option State
  | .next =>
      match s.control with
      | .scanning (row :: rest) wanted =>
          if row.key ∈ wanted.keys then
            some { s with control := .scanning rest (wanted.pop row.key) }
          else some { s with control := .deleting (doomed site s.rows s.remote row) row rest wanted }
      | .deleting (content :: contents) row rest wanted =>
          some { s with
            remote := deleteContent s.remote row.place content
            control := .deleting contents row rest wanted }
      | .deleting [] row rest wanted =>
          some { s with rows := eraseRow s.rows row, control := .scanning rest wanted }
      | .scanning [] wanted =>
          match insertAll site owner s.next s.rows wanted with
          | .error refused => some { s with control := .raised refused }
          | .ok (rows, docs) => some { s with
              rows := rows
              next := s.next + docs.length
              control := .returned
              jobs := fun job => docs[job]?.map (⟨·, .queued⟩) }
      | _ => none
  | .skip =>
      match s.control with
      | .deleting (_ :: contents) row rest wanted =>
          some { s with control := .deleting contents row rest wanted }
      | _ => none
  | .commit => if s.control = .returned then some { s with control := .committed } else none
  | .rollback =>
      match s.control with
      | .returned => some { s with rows := before, control := .rolledBack, jobs := fun _ => none }
      | .raised _ => some { s with rows := before, control := .rolledBack, jobs := fun _ => none }
      | _ => none
  | .push id =>
      match s.control, s.jobs id with
      | .committed, some job =>
          match pushStep site s.remote job.row job.push with
          | some (remote, push) => some { s with
              remote := remote
              jobs := Function.update s.jobs id (some ⟨job.row, push⟩) }
          | none => none
      | _, _ => none
  | .skipPush id =>
      match s.control, s.jobs id with
      | .committed, some ⟨row, .deleting (_ :: contents)⟩ =>
          some { s with jobs := Function.update s.jobs id (some ⟨row, .deleting contents⟩) }
      | _, _ => none
  | .failPush id =>
      match s.control, s.jobs id with
      | .committed, some job =>
          some { s with jobs := Function.update s.jobs id (some ⟨job.row, .failed⟩) }
      | _, _ => none

/-! ### What a step does -/

/-- **The steps**, each with what it needs and what it leaves. -/
inductive Steps (owner : Owner) (before : List Row) (s : State) : Action → State → Prop
  | keep (row : Row) (rest : List Row) (wanted : Dict (Place × String) Desired) :
      s.control = .scanning (row :: rest) wanted → row.key ∈ wanted.keys →
      Steps owner before s .next { s with control := .scanning rest (wanted.pop row.key) }
  | trash (row : Row) (rest : List Row) (wanted : Dict (Place × String) Desired) :
      s.control = .scanning (row :: rest) wanted → row.key ∉ wanted.keys →
      Steps owner before s .next
        { s with control := .deleting (doomed site s.rows s.remote row) row rest wanted }
  | delete (content : Option String) (contents : List (Option String)) (row : Row) (rest : List Row)
      (wanted : Dict (Place × String) Desired) :
      s.control = .deleting (content :: contents) row rest wanted →
      Steps owner before s .next { s with
        remote := deleteContent s.remote row.place content
        control := .deleting contents row rest wanted }
  | deleted (row : Row) (rest : List Row) (wanted : Dict (Place × String) Desired) :
      s.control = .deleting [] row rest wanted →
      Steps owner before s .next
        { s with rows := eraseRow s.rows row, control := .scanning rest wanted }
  | insert (wanted : Dict (Place × String) Desired) (rows docs : List Row) :
      s.control = .scanning [] wanted → insertAll site owner s.next s.rows wanted = .ok (rows, docs) →
      Steps owner before s .next { s with
        rows := rows
        next := s.next + docs.length
        control := .returned
        jobs := fun job => docs[job]?.map (⟨·, .queued⟩) }
  | refuse (wanted : Dict (Place × String) Desired) (refused : Refused) :
      s.control = .scanning [] wanted → insertAll site owner s.next s.rows wanted = .error refused →
      Steps owner before s .next { s with control := .raised refused }
  | skip (content : Option String) (contents : List (Option String)) (row : Row) (rest : List Row)
      (wanted : Dict (Place × String) Desired) :
      s.control = .deleting (content :: contents) row rest wanted →
      Steps owner before s .skip { s with control := .deleting contents row rest wanted }
  | commit : s.control = .returned → Steps owner before s .commit { s with control := .committed }
  | rollback : (s.control = .returned ∨ ∃ refused, s.control = .raised refused) →
      Steps owner before s .rollback
        { s with rows := before, control := .rolledBack, jobs := fun _ => none }
  | push (id : ℕ) (job : Job) (remote : List RemoteRecord) (push : Push) : s.control = .committed →
      s.jobs id = some job → pushStep site s.remote job.row job.push = some (remote, push) →
      Steps owner before s (.push id) { s with
        remote := remote
        jobs := Function.update s.jobs id (some ⟨job.row, push⟩) }
  | skipPush (id : ℕ) (row : Row) (content : Option String) (contents : List (Option String)) :
      s.control = .committed → s.jobs id = some ⟨row, .deleting (content :: contents)⟩ →
      Steps owner before s (.skipPush id)
        { s with jobs := Function.update s.jobs id (some ⟨row, .deleting contents⟩) }
  | failPush (id : ℕ) (job : Job) : s.control = .committed → s.jobs id = some job →
      Steps owner before s (.failPush id)
        { s with jobs := Function.update s.jobs id (some ⟨job.row, .failed⟩) }

variable {site : Site} {owner : Owner} {before : List Row} {s s' : State}

theorem steps_of_next (taken : step site owner before s .next = some s') :
    Steps site owner before s .next s' := by
  simp only [step] at taken
  split at taken
  case h_1 row rest wanted here =>
    by_cases kept : row.key ∈ wanted.keys
    · rw [if_pos kept] at taken
      obtain rfl := Option.some.inj taken
      exact .keep row rest wanted here kept
    · rw [if_neg kept] at taken
      obtain rfl := Option.some.inj taken
      exact .trash row rest wanted here kept
  case h_2 content contents row rest wanted here =>
    obtain rfl := Option.some.inj taken
    exact .delete content contents row rest wanted here
  case h_3 row rest wanted here =>
    obtain rfl := Option.some.inj taken
    exact .deleted row rest wanted here
  case h_4 wanted here =>
    cases result : insertAll site owner s.next s.rows wanted with
    | error refused =>
      rw [result] at taken
      obtain rfl := Option.some.inj taken
      exact .refuse wanted refused here result
    | ok both =>
      rw [result] at taken
      obtain rfl := Option.some.inj taken
      exact .insert wanted both.1 both.2 here result
  case h_5 => cases taken

theorem steps_of_step {action : Action} (taken : step site owner before s action = some s') :
    Steps site owner before s action s' := by
  cases action with
  | next => exact steps_of_next taken
  | skip =>
    simp only [step] at taken
    split at taken
    case h_1 content contents row rest wanted here =>
      obtain rfl := Option.some.inj taken
      exact .skip content contents row rest wanted here
    case h_2 => cases taken
  | commit =>
    simp only [step] at taken
    by_cases here : s.control = .returned
    · rw [if_pos here] at taken
      obtain rfl := Option.some.inj taken
      exact .commit here
    · rw [if_neg here] at taken
      cases taken
  | rollback =>
    simp only [step] at taken
    split at taken
    case h_1 here =>
      obtain rfl := Option.some.inj taken
      exact .rollback (Or.inl here)
    case h_2 refused here =>
      obtain rfl := Option.some.inj taken
      exact .rollback (Or.inr ⟨refused, here⟩)
    case h_3 => cases taken
  | push id =>
    simp only [step] at taken
    split at taken
    case h_1 job here there =>
      cases pushed : pushStep site s.remote job.row job.push with
      | none => rw [pushed] at taken; cases taken
      | some both =>
        rw [pushed] at taken
        obtain rfl := Option.some.inj taken
        exact .push id job both.1 both.2 here there pushed
    case h_2 => cases taken
  | skipPush id =>
    simp only [step] at taken
    split at taken
    case h_1 row content contents here there =>
      obtain rfl := Option.some.inj taken
      exact .skipPush id row content contents here there
    case h_2 => cases taken
  | failPush id =>
    simp only [step] at taken
    split at taken
    case h_1 job here there =>
      obtain rfl := Option.some.inj taken
      exact .failPush id job here there
    case h_2 => cases taken

theorem step_of_steps {action : Action} (steps : Steps site owner before s action s') :
    step site owner before s action = some s' := by
  cases steps with
  | keep row rest wanted here kept => simp only [step, here, if_pos kept]
  | trash row rest wanted here unwanted => simp only [step, here, if_neg unwanted]
  | delete content contents row rest wanted here => simp only [step, here]
  | deleted row rest wanted here => simp only [step, here]
  | insert wanted rows docs here result => simp only [step, here, result]
  | refuse wanted refused here result => simp only [step, here, result]
  | skip content contents row rest wanted here => simp only [step, here]
  | commit here => simp only [step, if_pos here]
  | rollback here =>
    rcases here with here | ⟨refused, here⟩
    · simp only [step, here]
    · simp only [step, here]
  | push id job remote push here there pushed => simp only [step, here, there, pushed]
  | skipPush id row content contents here there => simp only [step, here, there]
  | failPush id job here there => simp only [step, here, there]

end SuiteCloud.Dns
