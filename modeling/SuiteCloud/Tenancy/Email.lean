/-
**One email per tenant and key.**

`send`, `claim`, `get_name` and `deliver` of `suite_cloud/suite_cloud/doctype/tenant_email/tenant_email.py`,
each call a transaction of its own: a look at its snapshot for the key's row, an insert that waits for
another one's, a locking read, the delivery, and the commit.

* `getName` — `get_name`; `getName_injective`.
* `Delivery` — what the mail server and the connection to it do; `Delivery.raises`.
* `Action`, `step` — the calls, one statement at a time.
* `SentOnce` — a message per tenant and key, which the calls that finish later answer as sent, and no call
  for another key.
* `Meets` — a session that accepted a message is closed without an error.
* `email_sent_once` — **an email is sent once** in a run whose every step meets that.
* `closing_error_sends_again` — the email of a session that could not be closed.

Rows are kept: `clear_old_logs` deletes what is older than 90 days and is left out.
-/

import SuiteCloud.Library.Maps
import SuiteCloud.Library.Text
import SuiteCloud.Library.Transition

set_option linter.unusedSectionVars false

namespace SuiteCloud.Tenancy.Email

open SuiteCloud.Library

/-! ## Rows and their names -/

/-- A Suite Tenant, by its name, which is a UUID. -/
structure Tenant where
  name : String
  plain : ':' ∉ name.toList
  deriving DecidableEq

/-- What every name starts with. -/
def nameStart : String := "suite-cloud:tenant-email:"

/-- The text `get_name` names a row after. -/
def nameText (tenant : Tenant) (requestKey : String) : String :=
  nameStart ++ tenant.name ++ ":" ++ requestKey

theorem nameText_injective {tenant tenant' : Tenant} {key key' : String}
    (same : nameText tenant key = nameText tenant' key') : tenant = tenant' ∧ key = key' := by
  have texts (tenant : Tenant) (key : String) : (nameText tenant key).toList =
      nameStart.toList ++ (tenant.name.toList ++ ':' :: key.toList) := by
    have colon : ":".toList = [':'] := rfl
    rw [nameText, String.toList_append, String.toList_append, String.toList_append,
      List.append_assoc, List.append_assoc, colon, List.singleton_append]
  have chars := congrArg String.toList same
  rw [texts, texts, List.append_cancel_left_eq] at chars
  obtain ⟨names, keys⟩ := split_first tenant.plain tenant'.plain chars
  refine ⟨?_, String.toList_inj.mp keys⟩
  cases tenant
  cases tenant'
  cases String.toList_inj.mp names
  rfl

inductive Status
  | sending
  | sent
  | failed
  deriving DecidableEq

variable {C M : Type} [DecidableEq C] [DecidableEq M]

/-- A Tenant Email. -/
structure TenantEmail (M : Type) where
  tenant : Tenant
  requestKey : String
  status : Status
  messageId : Option M
  deriving DecidableEq

/-- The row that `claim` inserts. -/
def newRow (tenant : Tenant) (requestKey : String) : TenantEmail M := ⟨tenant, requestKey, .sending, none⟩

/-- What happens when a message is delivered: the mail server takes it, and closing the session raises. -/
structure Delivery where
  accepted : Bool
  closingRaises : Bool
  deriving DecidableEq

/-- `deliver` raises: its `finally` closes the session whatever became of the message. -/
def Delivery.raises (delivery : Delivery) : Bool := !delivery.accepted || delivery.closingRaises

/-- The row after a delivery. -/
def TenantEmail.delivered (row : TenantEmail M) (message : M) (delivery : Delivery) : TenantEmail M :=
  { row with
    messageId := some message
    status := if delivery.raises then .failed else .sent }

/-! ## Calls at once -/

/-- How far a call of `send` is. -/
inductive Phase (M : Type)
  /-- Its snapshot is taken; it shows the key's row, or does not. -/
  | begun (seen : Bool)
  /-- Its insert went through, uncommitted. -/
  | inserted
  /-- Its insert failed as a duplicate. -/
  | duplicate
  | loaded (row : TenantEmail M)
  | delivered (row : TenantEmail M)
  | over
  deriving DecidableEq

structure Call (M : Type) where
  tenant : Tenant
  requestKey : String
  phase : Phase M
  deriving DecidableEq

/-- A message the mail server took. -/
structure Accepted (M : Type) where
  tenant : Tenant
  requestKey : String
  message : M
  deriving DecidableEq

/-- A call that finished: its answer, and the messages of its tenant and key that were accepted by then. -/
structure Finished (M : Type) where
  answer : TenantEmail M
  tenant : Tenant
  requestKey : String
  accepted : List M
  deriving DecidableEq

/-- The committed rows and who locks each, the calls, and what happened: the messages accepted, the ids in
use, each with the tenant and key it was made for, and the calls that finished. -/
structure State (C M : Type) where
  rows : String → Option (TenantEmail M)
  locks : String → Option C
  calls : C → Option (Call M)
  accepted : List (Accepted M)
  ids : List (Accepted M)
  finished : List (Finished M)

/-- No email yet. -/
def State.empty : State C M := ⟨fun _ => none, fun _ => none, fun _ => none, [], [], []⟩

inductive Action (C M : Type)
  | begin (call : C) (tenant : Tenant) (requestKey : String)
  | insert (call : C)
  | load (call : C)
  /-- `message` is what `make_msgid` gives. -/
  | deliver (call : C) (message : M) (delivery : Delivery)
  | commit (call : C)
  | rollback (call : C)

variable (uuid5 : String → String)

/-- **`get_name`.** -/
def getName (tenant : Tenant) (requestKey : String) : String := uuid5 (nameText tenant requestKey)

/-- The name of a call's row. -/
def Call.name (call : Call M) : String := getName uuid5 call.tenant call.requestKey

variable (s : State C M)

/-- A call goes on to a phase. -/
def State.goes (c : C) (call : Call M) (phase : Phase M) : State C M :=
  { s with calls := Function.update s.calls c (some { call with phase := phase }) }

/-- The messages accepted for a tenant and key. -/
def State.messages (tenant : Tenant) (requestKey : String) : List M :=
  (s.accepted.filter fun entry => entry.tenant = tenant ∧ entry.requestKey = requestKey).map
    Accepted.message

/-- The row is nobody else's. -/
def State.free (c : C) (name : String) : Prop := s.locks name = none ∨ s.locks name = some c

instance decidableFree (c : C) (name : String) : Decidable (s.free c name) :=
  inferInstanceAs (Decidable (_ ∨ _))

/-- A call finishes with a row as its answer. -/
def State.finish (c : C) (call : Call M) (row : TenantEmail M) : State C M :=
  { s.goes c call .over with
    locks := Function.update s.locks (call.name uuid5) none
    finished := ⟨row, call.tenant, call.requestKey, s.messages call.tenant call.requestKey⟩ :: s.finished }

/-- **One statement of a call.** -/
def step : Action C M → Option (State C M)
  | .begin c tenant requestKey =>
    match s.calls c with
    | none =>
      some
        { s with
          calls := Function.update s.calls c
            (some ⟨tenant, requestKey, .begun (s.rows (getName uuid5 tenant requestKey)).isSome⟩) }
    | some _ => none
  | .insert c =>
    (s.calls c).bind fun call =>
      match call.phase with
      | .begun false =>
        if s.locks (call.name uuid5) ≠ none then none
        else if (s.rows (call.name uuid5)).isSome then some (s.goes c call .duplicate)
        else some
          { s.goes c call .inserted with
            locks := Function.update s.locks (call.name uuid5) (some c) }
      | _ => none
  | .load c =>
    (s.calls c).bind fun call =>
      if ¬ s.free c (call.name uuid5) then none
      else
        (match call.phase with
          | .begun true | .duplicate => s.rows (call.name uuid5)
          | .inserted => some (newRow call.tenant call.requestKey)
          | _ => none).map fun row =>
          { s.goes c call (.loaded row) with
            locks := Function.update s.locks (call.name uuid5) (some c) }
  | .deliver c message delivery =>
    (s.calls c).bind fun call =>
      match call.phase with
      | .loaded row =>
        if row.status = .sent ∨ message ∈ s.ids.map Accepted.message then none
        else
          let entry : Accepted M := ⟨call.tenant, call.requestKey, message⟩
          some
            { s.goes c call (.delivered (row.delivered message delivery)) with
              accepted := if delivery.accepted then entry :: s.accepted else s.accepted
              ids := entry :: s.ids }
      | _ => none
  | .commit c =>
    (s.calls c).bind fun call =>
      match call.phase with
      | .loaded row => if row.status = .sent then some (s.finish uuid5 c call row) else none
      | .delivered row =>
        some
          { s.finish uuid5 c call row with
            rows := Function.update s.rows (call.name uuid5) (some row) }
      | _ => none
  | .rollback c =>
    (s.calls c).bind fun call =>
      match call.phase with
      | .delivered _ | .over => none
      | _ =>
        some
          { s.goes c call .over with
            locks := if s.locks (call.name uuid5) = some c then
              Function.update s.locks (call.name uuid5) none else s.locks }

/-! ## What is proved -/

/-- **An email is sent once per tenant and key**: the mail server takes at most one message; the calls for
the key that finish after it answer its id as sent; and no call for another tenant or key answers it. -/
structure SentOnce : Prop where
  once : ∀ tenant requestKey, (s.messages tenant requestKey).length ≤ 1
  answered : ∀ finished ∈ s.finished, ∀ message ∈ finished.accepted,
    finished.answer.status = .sent ∧ finished.answer.messageId = some message
  apart : ∀ finished ∈ s.finished, ∀ entry ∈ s.accepted,
    finished.answer.messageId = some entry.message →
      finished.tenant = entry.tenant ∧ finished.requestKey = entry.requestKey

/-- **A session that accepted a message is closed without an error.** -/
def Meets : State C M → Action C M → Prop
  | _, .deliver _ _ delivery => delivery.accepted = true → delivery.closingRaises = false
  | _, _ => True

section Runs

variable {uuid5 : String → String} {s s' : State C M} {c other : C} {call call' : Call M}

theorem getName_injective (injective : Function.Injective uuid5) {tenant tenant' : Tenant}
    {key key' : String} (same : getName uuid5 tenant key = getName uuid5 tenant' key') :
    tenant = tenant' ∧ key = key' :=
  nameText_injective (injective same)

/-- The call has its row locked. -/
def Phase.holds : Phase M → Bool
  | .inserted | .loaded _ | .delivered _ => true
  | .begun _ | .duplicate | .over => false

/-- The message a row says was sent. -/
def sentOf (row : Option (TenantEmail M)) : List M :=
  match row with
  | some row => if row.status = .sent then row.messageId.toList else []
  | none => []

/-- No call for the tenant and key has delivered and is yet to commit. -/
def Quiet (s : State C M) (tenant : Tenant) (requestKey : String) : Prop :=
  ∀ c call, s.calls c = some call → call.tenant = tenant → call.requestKey = requestKey →
    ∀ row, call.phase ≠ .delivered row

/-- **The invariant.** The call that has the lock works on the committed row; what was accepted is what that
row says was sent, or the row of the call that has delivered; and every id stays with its tenant and key. -/
structure Inv (uuid5 : String → String) (s : State C M) : Prop where
  locked : ∀ c call, s.calls c = some call → call.phase.holds = true →
    s.locks (call.name uuid5) = some c
  loaded : ∀ c call row, s.calls c = some call → call.phase = .loaded row →
    row = (s.rows (call.name uuid5)).getD (newRow call.tenant call.requestKey)
  inserted : ∀ c call, s.calls c = some call → call.phase = .inserted → s.rows (call.name uuid5) = none
  settled : ∀ tenant requestKey, Quiet s tenant requestKey →
    s.messages tenant requestKey = sentOf (s.rows (getName uuid5 tenant requestKey))
  delivered : ∀ c call row, s.calls c = some call → call.phase = .delivered row →
    s.messages call.tenant call.requestKey = sentOf (some row)
  answered : ∀ finished ∈ s.finished, ∀ message ∈ finished.accepted,
    finished.answer.status = .sent ∧ finished.answer.messageId = some message
  distinct : (s.ids.map Accepted.message).Nodup
  known : ∀ entry ∈ s.accepted, entry ∈ s.ids
  rowIds : ∀ tenant requestKey row message, s.rows (getName uuid5 tenant requestKey) = some row →
    row.messageId = some message → ⟨tenant, requestKey, message⟩ ∈ s.ids
  callIds : ∀ c call row message, s.calls c = some call → call.phase = .delivered row →
    row.messageId = some message → ⟨call.tenant, call.requestKey, message⟩ ∈ s.ids
  finishedIds : ∀ finished ∈ s.finished, ∀ message, finished.answer.messageId = some message →
    ⟨finished.tenant, finished.requestKey, message⟩ ∈ s.ids

theorem Inv.empty : Inv uuid5 (State.empty : State C M) where
  locked _ _ here := nomatch here
  loaded _ _ _ here := nomatch here
  inserted _ _ here := nomatch here
  settled _ _ _ := rfl
  delivered _ _ _ here := nomatch here
  answered := List.forall_mem_nil _
  distinct := List.nodup_nil
  known := List.forall_mem_nil _
  rowIds _ _ _ _ here := nomatch here
  callIds _ _ _ _ here := nomatch here
  finishedIds := List.forall_mem_nil _

theorem sentOf_length (row : Option (TenantEmail M)) : (sentOf row).length ≤ 1 := by
  cases row with
  | none => exact Nat.zero_le 1
  | some row =>
    rw [sentOf]
    split
    · cases row.messageId
      · exact Nat.zero_le 1
      · exact Nat.le_refl 1
    · exact Nat.zero_le 1

theorem mem_sentOf {row : TenantEmail M} {message : M} (member : message ∈ sentOf (some row)) :
    row.status = .sent ∧ row.messageId = some message := by
  rw [sentOf] at member
  split at member
  · rename_i sent
    exact ⟨sent, Option.mem_toList.mp member⟩
  · cases member

/-- **A call goes on**, and nothing is delivered or committed by it. -/
theorem Inv.turn {locks : String → Option C} (inv : Inv uuid5 s)
    (before : ∀ call row, s.calls c = some call → call.phase ≠ .delivered row)
    (after : ∀ row, call'.phase ≠ .delivered row)
    (own : call'.phase.holds = true → locks (call'.name uuid5) = some c)
    (others : ∀ name other, other ≠ c → s.locks name = some other → locks name = some other)
    (loaded : ∀ row, call'.phase = .loaded row →
      row = (s.rows (call'.name uuid5)).getD (newRow call'.tenant call'.requestKey))
    (inserted : call'.phase = .inserted → s.rows (call'.name uuid5) = none) :
    Inv uuid5 { s with calls := Function.update s.calls c (some call'), locks := locks } := by
  refine ⟨?_, ?_, ?_, ?_, ?_, inv.answered, inv.distinct, inv.known, inv.rowIds, ?_, inv.finishedIds⟩
  · intro other call found holds
    rcases update_eq_some found with ⟨rfl, rfl⟩ | ⟨different, old⟩
    · exact own holds
    · exact others _ other different (inv.locked other call old holds)
  · intro other call row found here
    rcases update_eq_some found with ⟨rfl, rfl⟩ | ⟨-, old⟩
    · exact loaded row here
    · exact inv.loaded other call row old here
  · intro other call found here
    rcases update_eq_some found with ⟨rfl, rfl⟩ | ⟨-, old⟩
    · exact inserted here
    · exact inv.inserted other call old here
  · intro tenant requestKey quiet
    refine inv.settled tenant requestKey fun other call old ofTenant ofKey row isDelivered => ?_
    have different : other ≠ c := by
      rintro rfl
      exact before call row old isDelivered
    exact quiet other call ((Function.update_of_ne different _ _).trans old) ofTenant ofKey row isDelivered
  · intro other call row found isDelivered
    rcases update_eq_some found with ⟨rfl, rfl⟩ | ⟨-, old⟩
    · exact absurd isDelivered (after row)
    · exact inv.delivered other call row old isDelivered
  · intro other call row message found isDelivered
    rcases update_eq_some found with ⟨rfl, rfl⟩ | ⟨-, old⟩
    · exact absurd isDelivered (after row)
    · exact inv.callIds other call row message old isDelivered

theorem not_delivered (here : s.calls c = some call) (phase : ∀ row, call.phase ≠ .delivered row) :
    ∀ call row, s.calls c = some call → call.phase ≠ .delivered row := by
  intro found row same
  obtain rfl := Option.some.inj (here.symm.trans same)
  exact phase row

theorem begin_inv {tenant : Tenant} {requestKey : String} (inv : Inv uuid5 s)
    (taken : step uuid5 s (.begin c tenant requestKey) = some s') : Inv uuid5 s' := by
  rw [step] at taken
  cases here : s.calls c with
  | some call =>
    rw [here] at taken
    cases taken
  | none =>
    rw [here] at taken
    obtain rfl := Option.some.inj taken
    refine inv.turn ?_ nofun nofun (fun _ _ _ => id) nofun nofun
    intro call row found
    rw [here] at found
    cases found

theorem lock_others {locks : String → Option C} {name : String} (free : locks name = none ∨ locks name = some c) :
    ∀ found other, other ≠ c → locks found = some other →
      Function.update locks name (some c) found = some other := by
  intro found other different locked
  have apart : found ≠ name := by
    rintro rfl
    rcases free with none | ours
    · exact Option.some_ne_none _ (locked.symm.trans none)
    · exact different (Option.some.inj (locked.symm.trans ours))
  exact (Function.update_of_ne apart _ _).trans locked

theorem insert_inv (inv : Inv uuid5 s) (taken : step uuid5 s (.insert c) = some s') : Inv uuid5 s' := by
  obtain ⟨call, here, taken⟩ := Option.bind_eq_some_iff.mp taken
  split at taken
  · rename_i phase
    obtain ⟨unlocked, taken⟩ := Option.ite_none_left_eq_some.mp taken
    rw [not_not] at unlocked
    have before := not_delivered here (by rw [phase]; exact nofun)
    by_cases there : (s.rows (call.name uuid5)).isSome = true
    · rw [if_pos there] at taken
      obtain rfl := Option.some.inj taken
      exact inv.turn before nofun nofun (fun _ _ _ => id) nofun nofun
    · rw [if_neg there] at taken
      obtain rfl := Option.some.inj taken
      refine inv.turn before nofun (fun _ => Function.update_self _ _ _) (lock_others (Or.inl unlocked))
        nofun fun _ => ?_
      exact Option.not_isSome_iff_eq_none.mp there
  · cases taken

theorem load_inv (inv : Inv uuid5 s) (taken : step uuid5 s (.load c) = some s') : Inv uuid5 s' := by
  obtain ⟨call, here, taken⟩ := Option.bind_eq_some_iff.mp taken
  obtain ⟨free, taken⟩ := Option.ite_none_left_eq_some.mp taken
  rw [not_not] at free
  obtain ⟨row, loads, rfl⟩ := Option.map_eq_some_iff.mp taken
  have turned (before : ∀ row, call.phase ≠ .delivered row)
      (is : row = (s.rows (call.name uuid5)).getD (newRow call.tenant call.requestKey)) : Inv uuid5
        { s.goes c call (.loaded row) with
          locks := Function.update s.locks (call.name uuid5) (some c) } := by
    refine inv.turn (not_delivered here before) nofun (fun _ => Function.update_self _ _ _)
      (lock_others free) ?_ nofun
    intro other same
    obtain rfl := Phase.loaded.inj same
    exact is
  split at loads
  · rename_i phase
    refine turned (by rw [phase]; exact nofun) ?_
    rw [loads]
    rfl
  · rename_i phase
    refine turned (by rw [phase]; exact nofun) ?_
    rw [loads]
    rfl
  · rename_i phase
    obtain rfl := Option.some.inj loads
    refine turned (by rw [phase]; exact nofun) ?_
    rw [inv.inserted c call here phase]
    rfl
  · cases loads

theorem rollback_inv (inv : Inv uuid5 s) (taken : step uuid5 s (.rollback c) = some s') :
    Inv uuid5 s' := by
  obtain ⟨call, here, taken⟩ := Option.bind_eq_some_iff.mp taken
  split at taken
  · cases taken
  · cases taken
  · rename_i undelivered _
    obtain rfl := Option.some.inj taken
    refine inv.turn (not_delivered here undelivered) nofun nofun ?_ nofun nofun
    intro name other different locked
    by_cases ours : s.locks (call.name uuid5) = some c
    · rw [if_pos ours]
      have apart : name ≠ call.name uuid5 := by
        rintro rfl
        exact different (Option.some.inj (locked.symm.trans ours))
      exact (Function.update_of_ne apart _ _).trans locked
    · rw [if_neg ours]
      exact locked

/-- **Two calls for one tenant and key** are not both at their row. -/
theorem Inv.alone (inv : Inv uuid5 s) (here : s.calls c = some call) (holds : call.phase.holds = true)
    (there : s.calls other = some call') (holds' : call'.phase.holds = true)
    (same : call'.name uuid5 = call.name uuid5) : other = c := by
  have ours := inv.locked c call here holds
  have theirs := inv.locked other call' there holds'
  rw [same] at theirs
  exact Option.some.inj (theirs.symm.trans ours)

theorem Inv.messages_loaded (inv : Inv uuid5 s) {row : TenantEmail M} (here : s.calls c = some call)
    (phase : call.phase = .loaded row) :
    s.messages call.tenant call.requestKey = sentOf (s.rows (call.name uuid5)) := by
  refine inv.settled _ _ fun other call' there tenant requestKey row' delivered => ?_
  have name : call'.name uuid5 = call.name uuid5 := by
    rw [Call.name, Call.name, tenant, requestKey]
  obtain rfl := inv.alone here (by rw [phase]; rfl) there (by rw [delivered]; rfl) name
  obtain rfl := Option.some.inj (here.symm.trans there)
  rw [phase] at delivered
  cases delivered

theorem messages_cons (entry : Accepted M) (tenant : Tenant) (requestKey : String) :
    State.messages { s with accepted := entry :: s.accepted } tenant requestKey =
      if entry.tenant = tenant ∧ entry.requestKey = requestKey then
        entry.message :: s.messages tenant requestKey
      else s.messages tenant requestKey := by
  rw [State.messages, List.filter_cons]
  by_cases same : entry.tenant = tenant ∧ entry.requestKey = requestKey
  · rw [if_pos (decide_eq_true same), if_pos same]
    rfl
  · rw [if_neg (by simpa using same), if_neg same]
    rfl

theorem messages_deliver (entry : Accepted M) (delivery : Delivery) (tenant : Tenant)
    (requestKey : String) :
    State.messages { s with accepted := if delivery.accepted then entry :: s.accepted else s.accepted }
        tenant requestKey =
      if delivery.accepted ∧ entry.tenant = tenant ∧ entry.requestKey = requestKey then
        entry.message :: s.messages tenant requestKey
      else s.messages tenant requestKey := by
  by_cases accepted : delivery.accepted = true
  · rw [if_pos accepted, messages_cons]
    simp only [accepted, true_and]
  · rw [if_neg accepted, if_neg fun same => accepted same.1]

theorem deliver_inv {message : M} {delivery : Delivery} (inv : Inv uuid5 s)
    (meets : Meets s (.deliver c message delivery))
    (taken : step uuid5 s (.deliver c message delivery) = some s') : Inv uuid5 s' := by
  obtain ⟨call, here, taken⟩ := Option.bind_eq_some_iff.mp taken
  split at taken
  · rename_i row phase
    obtain ⟨allowed, taken⟩ := Option.ite_none_left_eq_some.mp taken
    obtain ⟨unsent, fresh⟩ := not_or.mp allowed
    obtain rfl := Option.some.inj taken
    have holds : call.phase.holds = true := by
      rw [phase]
      rfl
    have alone : ∀ other call', other ≠ c → s.calls other = some call' → call'.phase.holds = true →
        ¬ (call.tenant = call'.tenant ∧ call.requestKey = call'.requestKey) := by
      rintro other call' different there holds' ⟨tenant, requestKey⟩
      refine different (inv.alone here holds there holds' ?_)
      rw [Call.name, Call.name, tenant, requestKey]
    -- Nothing was accepted for the tenant and key so far.
    have none : s.messages call.tenant call.requestKey = [] := by
      rw [inv.messages_loaded here phase]
      have is := inv.loaded c call row here phase
      cases found : s.rows (call.name uuid5) with
      | none => rfl
      | some committed =>
        rw [found] at is
        obtain rfl : row = committed := is
        rw [sentOf, if_neg unsent]
    have messages : ∀ tenant requestKey,
        ¬ (call.tenant = tenant ∧ call.requestKey = requestKey) →
          State.messages { s with accepted := if delivery.accepted then
            ⟨call.tenant, call.requestKey, message⟩ :: s.accepted else s.accepted } tenant requestKey =
              s.messages tenant requestKey := by
      intro tenant requestKey apart
      rw [messages_deliver, if_neg fun same => apart same.2]
    refine ⟨?_, ?_, ?_, ?_, ?_, inv.answered, ?_, ?_, ?_, ?_, ?_⟩
    · intro other call' found holds'
      rcases update_eq_some found with ⟨rfl, rfl⟩ | ⟨-, old⟩
      · exact inv.locked other call here holds
      · exact inv.locked other call' old holds'
    · intro other call' row' found loaded
      rcases update_eq_some found with ⟨rfl, rfl⟩ | ⟨-, old⟩
      · cases loaded
      · exact inv.loaded other call' row' old loaded
    · intro other call' found inserted
      rcases update_eq_some found with ⟨rfl, rfl⟩ | ⟨-, old⟩
      · cases inserted
      · exact inv.inserted other call' old inserted
    · intro tenant requestKey quiet
      have apart : ¬ (call.tenant = tenant ∧ call.requestKey = requestKey) := by
        rintro ⟨rfl, rfl⟩
        exact quiet c _ (Function.update_self _ _ _) rfl rfl _ rfl
      refine (messages _ _ apart).trans (inv.settled tenant requestKey ?_)
      intro other call' old ofTenant ofKey row' isDelivered
      have different : other ≠ c := by
        rintro rfl
        obtain rfl := Option.some.inj (here.symm.trans old)
        rw [phase] at isDelivered
        cases isDelivered
      exact quiet other call' ((Function.update_of_ne different _ _).trans old) ofTenant ofKey row'
        isDelivered
    · intro other call' row' found isDelivered
      rcases update_eq_some found with ⟨rfl, rfl⟩ | ⟨different, old⟩
      · obtain rfl := Phase.delivered.inj isDelivered
        refine (messages_deliver _ _ _ _).trans ?_
        by_cases accepted : delivery.accepted = true
        · have sent : delivery.raises = false := by
            rw [Delivery.raises, accepted, meets accepted]
            rfl
          rw [if_pos ⟨accepted, rfl, rfl⟩, none, sentOf, TenantEmail.delivered, sent]
          rfl
        · have failed : delivery.raises = true := by
            rw [Delivery.raises, Bool.eq_false_iff.mpr accepted]
            rfl
          rw [if_neg fun same => accepted same.1, sentOf, TenantEmail.delivered, failed]
          exact none
      · refine (messages _ _ ?_).trans (inv.delivered other call' row' old isDelivered)
        exact alone other call' different old (by rw [isDelivered]; rfl)
    · exact List.nodup_cons.mpr ⟨fresh, inv.distinct⟩
    · intro entry member
      by_cases accepted : delivery.accepted = true
      · rw [if_pos accepted] at member
        rcases List.mem_cons.mp member with rfl | old
        · exact List.mem_cons_self
        · exact List.mem_cons_of_mem _ (inv.known entry old)
      · rw [if_neg accepted] at member
        exact List.mem_cons_of_mem _ (inv.known entry member)
    · intro tenant requestKey row' found here' there
      exact List.mem_cons_of_mem _ (inv.rowIds tenant requestKey row' found here' there)
    · intro other call' row' found there isDelivered named
      rcases update_eq_some there with ⟨rfl, rfl⟩ | ⟨-, old⟩
      · obtain rfl := Phase.delivered.inj isDelivered
        obtain rfl := Option.some.inj named
        exact List.mem_cons_self
      · exact List.mem_cons_of_mem _ (inv.callIds other call' row' found old isDelivered named)
    · intro finished member found named
      exact List.mem_cons_of_mem _ (inv.finishedIds finished member found named)
  · cases taken

theorem finish_inv (injective : Function.Injective uuid5) {row : TenantEmail M} (inv : Inv uuid5 s)
    (here : s.calls c = some call) (holds : call.phase.holds = true)
    (messages : s.messages call.tenant call.requestKey = sentOf (some row))
    (ids : ∀ message, row.messageId = some message → ⟨call.tenant, call.requestKey, message⟩ ∈ s.ids) :
    Inv uuid5
      { s.finish uuid5 c call row with
        rows := Function.update s.rows (call.name uuid5) (some row) } := by
  have apart : ∀ other call', other ≠ c → s.calls other = some call' → call'.phase.holds = true →
      call'.name uuid5 ≠ call.name uuid5 :=
    fun other call' different there holds' same => different (inv.alone here holds there holds' same)
  refine ⟨?_, ?_, ?_, ?_, ?_, ?_, inv.distinct, inv.known, ?_, ?_, ?_⟩
  · intro other call' found holds'
    rcases update_eq_some found with ⟨rfl, rfl⟩ | ⟨different, old⟩
    · cases holds'
    · have locked := inv.locked other call' old holds'
      exact (Function.update_of_ne (apart other call' different old holds') _ _).trans locked
  · intro other call' row' found loaded
    rcases update_eq_some found with ⟨rfl, rfl⟩ | ⟨different, old⟩
    · cases loaded
    · have name := apart other call' different old (by rw [loaded]; rfl)
      show row' = (Function.update s.rows (call.name uuid5) (some row) (call'.name uuid5)).getD _
      rw [Function.update_of_ne name]
      exact inv.loaded other call' row' old loaded
  · intro other call' found inserted
    rcases update_eq_some found with ⟨rfl, rfl⟩ | ⟨different, old⟩
    · cases inserted
    · have name := apart other call' different old (by rw [inserted]; rfl)
      exact (Function.update_of_ne name _ _).trans (inv.inserted other call' old inserted)
  · intro tenant requestKey quiet
    show s.messages tenant requestKey =
      sentOf (Function.update s.rows (call.name uuid5) (some row) (getName uuid5 tenant requestKey))
    by_cases same : getName uuid5 tenant requestKey = call.name uuid5
    · obtain ⟨rfl, rfl⟩ := getName_injective injective same
      rw [same, Function.update_self]
      exact messages
    · rw [Function.update_of_ne same]
      refine inv.settled tenant requestKey fun other call' old ofTenant ofKey row' isDelivered => ?_
      have different : other ≠ c := by
        rintro rfl
        obtain rfl := Option.some.inj (here.symm.trans old)
        refine same ?_
        rw [Call.name, ofTenant, ofKey]
      exact quiet other call' ((Function.update_of_ne different _ _).trans old) ofTenant ofKey row'
        isDelivered
  · intro other call' row' found isDelivered
    rcases update_eq_some found with ⟨rfl, rfl⟩ | ⟨-, old⟩
    · cases isDelivered
    · exact inv.delivered other call' row' old isDelivered
  · intro finished member message accepted
    rcases List.mem_cons.mp member with rfl | old
    · have member : message ∈ s.messages call.tenant call.requestKey := accepted
      rw [messages] at member
      exact mem_sentOf member
    · exact inv.answered finished old message accepted
  · intro tenant requestKey row' message found named
    rcases update_eq_some found with ⟨same, rfl⟩ | ⟨-, old⟩
    · obtain ⟨rfl, rfl⟩ := getName_injective injective same
      exact ids message named
    · exact inv.rowIds tenant requestKey row' message old named
  · intro other call' row' message found isDelivered
    rcases update_eq_some found with ⟨rfl, rfl⟩ | ⟨-, old⟩
    · cases isDelivered
    · exact inv.callIds other call' row' message old isDelivered
  · intro finished member message named
    rcases List.mem_cons.mp member with rfl | old
    · exact ids message named
    · exact inv.finishedIds finished old message named

theorem commit_inv (injective : Function.Injective uuid5) (inv : Inv uuid5 s)
    (taken : step uuid5 s (.commit c) = some s') : Inv uuid5 s' := by
  obtain ⟨call, here, taken⟩ := Option.bind_eq_some_iff.mp taken
  split at taken
  · rename_i row phase
    obtain ⟨sent, taken⟩ := Option.ite_none_right_eq_some.mp taken
    obtain rfl := Option.some.inj taken
    -- The row was sent before, so it is the committed one.
    have committed : s.rows (call.name uuid5) = some row := by
      have is := inv.loaded c call row here phase
      cases found : s.rows (call.name uuid5) with
      | none =>
        rw [found] at is
        rw [is] at sent
        cases sent
      | some committed =>
        rw [found] at is
        rw [show row = committed from is]
    have messages := inv.messages_loaded here phase
    rw [committed] at messages
    have finished := finish_inv injective inv here (by rw [phase]; rfl) messages
      (inv.rowIds _ _ row · committed)
    rw [← committed, Function.update_eq_self] at finished
    exact finished
  · rename_i row phase
    obtain rfl := Option.some.inj taken
    exact finish_inv injective inv here (by rw [phase]; rfl) (inv.delivered c call row here phase)
      (inv.callIds c call row · here phase)
  · cases taken

theorem step_inv (injective : Function.Injective uuid5) {action : Action C M} (inv : Inv uuid5 s)
    (meets : Meets s action) (taken : step uuid5 s action = some s') : Inv uuid5 s' := by
  cases action with
  | begin c tenant requestKey => exact begin_inv inv taken
  | insert c => exact insert_inv inv taken
  | load c => exact load_inv inv taken
  | deliver c message delivery => exact deliver_inv inv meets taken
  | commit c => exact commit_inv injective inv taken
  | rollback c => exact rollback_inv inv taken

theorem Inv.sentOnce (inv : Inv uuid5 s) : SentOnce s := by
  refine ⟨?_, inv.answered, ?_⟩
  · intro tenant requestKey
    by_cases quiet : Quiet s tenant requestKey
    · rw [inv.settled tenant requestKey quiet]
      exact sentOf_length _
    · simp only [Quiet, not_forall] at quiet
      obtain ⟨c, call, here, rfl, rfl, row, delivered⟩ := quiet
      rw [inv.delivered c call row here (not_not.mp delivered)]
      exact sentOf_length _
  · intro finished member entry accepted answered
    have ours := inv.finishedIds finished member entry.message answered
    have theirs := inv.known entry accepted
    have same := List.inj_on_of_nodup_map inv.distinct ours theirs rfl
    exact ⟨congrArg Accepted.tenant same, congrArg Accepted.requestKey same⟩

end Runs

/-- **An email is sent once per tenant and key**, in a run from no email whose every step meets `Meets`. -/
theorem email_sent_once {uuid5 : String → String} (injective : Function.Injective uuid5) {s : State C M}
    (reached : Reaches (step uuid5) Meets State.empty s) : SentOnce s := by
  have inv : Inv uuid5 s := reached.invariant (Inv uuid5) Inv.empty fun inv meets taken =>
    step_inv injective inv meets taken
  exact inv.sentOnce

/-! ### Runs -/

instance decidableMeets (s : State C M) : ∀ action, Decidable (Meets s action)
  | .deliver _ _ _ => inferInstanceAs (Decidable (_ → _))
  | .begin _ _ _ | .insert _ | .load _ | .commit _ | .rollback _ => isTrue trivial

def acme : Tenant := ⟨"0198", by decide⟩

/-- Three calls for one key: the second waits for the first, whose message is refused, and sends it; the
third answers that. -/
def resent : List (Action (Fin 3) ℕ) :=
  [.begin 0 acme "invite", .begin 1 acme "invite", .insert 0, .load 0, .deliver 0 10 ⟨false, false⟩,
    .commit 0, .insert 1, .load 1, .deliver 1 11 ⟨true, false⟩, .commit 1, .begin 2 acme "invite", .load 2,
    .commit 2]

theorem email_sent_once_resent : ∃ s, run (step id) State.empty resent = some s ∧
    s.finished.map (fun finished => (finished.answer.status, finished.answer.messageId)) =
      [(.sent, some 11), (.sent, some 11), (.failed, some 10)] ∧ SentOnce s := by
  have ends : (run (step id) State.empty resent).map (fun s =>
      s.finished.map fun finished => (finished.answer.status, finished.answer.messageId)) =
        some [(.sent, some 11), (.sent, some 11), (.failed, some 10)] := by
    decide
  obtain ⟨s, done, finished⟩ := Option.map_eq_some_iff.mp ends
  have meets : RunMeets (step id) Meets State.empty resent := by decide
  exact ⟨s, done, finished, email_sent_once Function.injective_id (reaches_of_run meets done)⟩

/-- The session of the first call's message could not be closed, so its key is sent again. -/
def sentAgain : List (Action (Fin 3) ℕ) :=
  [.begin 0 acme "invite", .insert 0, .load 0, .deliver 0 10 ⟨true, true⟩, .commit 0,
    .begin 1 acme "invite", .load 1, .deliver 1 11 ⟨true, false⟩, .commit 1]

/-- **The mail server takes two messages for one key.** -/
theorem closing_error_sends_again : ∃ s : State (Fin 3) ℕ, Reaches (step id) anyStep State.empty s ∧
    s.accepted = [⟨acme, "invite", 11⟩, ⟨acme, "invite", 10⟩] ∧ ¬ SentOnce s := by
  have ends : (run (step id) State.empty sentAgain).map (fun s : State (Fin 3) ℕ => s.accepted) =
      some [⟨acme, "invite", 11⟩, ⟨acme, "invite", 10⟩] := by
    decide
  obtain ⟨s, done, accepted⟩ := Option.map_eq_some_iff.mp ends
  refine ⟨s, reaches_of_run (runMeets_of_forall fun _ _ _ => trivial) done, accepted, fun once => ?_⟩
  have length := once.once acme "invite"
  rw [State.messages, accepted] at length
  exact absurd length (by decide)

end SuiteCloud.Tenancy.Email
