/-
**An account created, and the lists it joins.**

`create_account` of `suite_cloud/api/mail/accounts.py` with `MailAccount.after_insert`, `push_create` and
`push_destroy`. The account and its credential go to the cluster, then each list asked for is patched; a
call that is refused undoes by hand what the rollback of the database cannot.

* `World` — the recipient rows of the transaction, the accounts and recipients of the cluster, and how
  many calls it has answered. One call is refused, without effect: the one of the number `refused`.
* `joinList`, `leaveList` — one list takes the address, or lets it go.
* `createAccount` — **the request**, to its end or to the world in which it raises.
* `failed_creation_leaves_no_trace` — **a failed creation leaves no trace exactly when** the cluster had
  no account of the address, and no list joined before one that is patched delivered to it already.
* `already_delivering` — a list that delivered to the address before the request, and not after it.

The credential belongs to the account and goes with it. The checks that need neither the address nor the
lists are one flag of the request; all of them are made before the first call.
-/

import SuiteCloud.Mail.Lists.Mirror

namespace SuiteCloud.Mail.Lists.Creation

open SuiteCloud.Library SuiteCloud.Mail.Tenancy

/-! ## The request -/

/-- What the request is asked for. -/
structure AccountRequest where
  tenant : String
  email : String
  mailingLists : List String
  /-- The password, the send limits, the aliases, groups and quotas, the domain being live, the room the
  tenant has, and no account, group or alias of the address: every other check passes. -/
  passes : Bool

section Requests

variable (platform : Platform)

/-- `owned("Mailing List", name)`. -/
def owned (s : State) (tenant name : String) : Option MailingList :=
  (s.lists (platform.normalizeName name)).filter (·.tenant = tenant)

/-- The checks before the first call: the address of the account and the lists to join. -/
def AccountRequest.validate (s : State) (request : AccountRequest) :
    Option (String × List MailingList) :=
  (asList request.mailingLists membershipCap).bind fun names =>
    (names.mapM (owned platform s request.tenant)).bind fun lists =>
      (platform.validateEmailAddress request.email).bind fun email =>
        -- `get_tenant_domain`, and the part of `assert_address_available` that asks the lists.
        if s.owner (platform.normalizeDomain (domainPart email)) = some request.tenant ∧
            s.lists email = none ∧ request.passes = true then
          some (email, lists)
        else none

/-! ## Calls -/

/-- The transaction and the cluster. -/
structure World where
  table : Table
  accounts : Finset String
  recipients : String → Finset String
  answered : ℕ

variable (refused : Option ℕ)

/-- **A call to the cluster.** `act` is what it does, `none` where the cluster never accepts it. -/
def World.call (w : World) (act : World → Option World) : Except World World :=
  let next := { w with answered := w.answered + 1 }
  if refused = some w.answered then .error next
  else match act next with
    | none => .error next
    | some done => .ok done

/-- `push_create` of an account: an address that has one is refused. -/
def pushCreate (email : String) (w : World) : Except World World :=
  w.call refused fun w =>
    if email ∈ w.accounts then none else some { w with accounts := insert email w.accounts }

/-- `push_destroy` of the account of this document. -/
def pushDestroy (email : String) (w : World) : Except World World :=
  w.call refused fun w => some { w with accounts := w.accounts.erase email }

/-- `account_client` and `create_secret`: the login as the account, and its first app password. -/
def pushCredentials (w : World) : Except World World :=
  (w.call refused some).bind fun w => w.call refused some

/-- `push_update` of the recipients of a list. -/
def pushUpdate (list : MailingList) (patch : Patch) (w : World) : Except World World :=
  w.call refused fun w => some
    { w with
      recipients := Function.update w.recipients list.email
        (applyPatch (w.recipients list.email) patch) }

/-- The patches of a list, one after the other. -/
def pushUpdates (list : MailingList) : List Patch → World → Except World World
  | [], w => .ok w
  | patch :: rest, w => (pushUpdate refused list patch w).bind (pushUpdates list rest)

/-- The world in which a step ends, or raises. -/
def World.left : Except World World → World
  | .ok w => w
  | .error w => w

/-! ## The steps -/

/-- `MailAccount.after_insert`. -/
def afterInsert (email : String) (w : World) : Except World World :=
  (pushCreate refused email w).bind fun w =>
    match pushCredentials refused w with
    | .ok w => .ok w
    -- The insert rolls back; the account must not survive.
    | .error w => .error (World.left (pushDestroy refused email w))

/-- `add_recipients([email])`: the row is written, then the patch goes out. -/
def joinList (owner : String → Option String) (email : String) (list : MailingList) (w : World) :
    Except World World :=
  match (addRecipients platform list owner w.table [email] false).ends with
  | none => .error w
  | some (written, added) =>
      pushUpdates refused list (pushRecipientChanges list added []).sent { w with table := written }

/-- `remove_recipients([email])` with `suppress(Exception)`. -/
def leaveList (email : String) (w : World) (list : MailingList) : World :=
  match (removeRecipients platform list w.table [email]).ends with
  | none => w
  | some (left, _) =>
      World.left (pushUpdates refused list (removeRecipients platform list w.table [email]).sent
        { w with table := left })

/-- The loop over the lists; where it raises, with the lists `joined` by then. -/
def joinLists (owner : String → Option String) (email : String) (joined : List MailingList) :
    List MailingList → World → Except (List MailingList × World) World
  | [], w => .ok w
  | list :: rest, w =>
      match joinList platform refused owner email list w with
      | .error w => .error (joined, w)
      | .ok w => joinLists owner email (joined ++ [list]) rest w

/-- **`create_account`.** -/
def createAccount (s : State) (accounts : Finset String) (request : AccountRequest) :
    Except World World :=
  let start : World := ⟨s.table, accounts, s.recipients, 0⟩
  match request.validate platform s with
  | none => .error start
  | some (email, lists) =>
      (afterInsert refused email start).bind fun w =>
        match joinLists platform refused s.owner email [] lists w with
        | .ok w => .ok w
        | .error (joined, w) =>
            .error (World.left (pushDestroy refused email
              (joined.foldl (leaveList platform refused email) w)))

end Requests

/-! ## Calls that are accepted -/

/-- The refused call is behind. -/
def Past (refused : Option ℕ) (answered : ℕ) : Prop := ∀ number, answered ≤ number → refused ≠ some number

section Calls

variable {refused : Option ℕ} {w : World} {list : MailingList} {patches : List Patch}

theorem call_of_eq {act : World → Option World} (here : refused = some w.answered) :
    w.call refused act = .error { w with answered := w.answered + 1 } := by
  unfold World.call
  exact if_pos here

theorem call_of_ne {act : World → Option World} {done : World} (other : refused ≠ some w.answered)
    (acts : act { w with answered := w.answered + 1 } = some done) : w.call refused act = .ok done := by
  unfold World.call
  rw [if_neg other]
  simp only [acts]

theorem ok_bind (next : World → Except World World) : (Except.ok w).bind next = next w := rfl

theorem Past.later {answered more : ℕ} (past : Past refused answered) (le : answered ≤ more) :
    Past refused more := fun number after => past number (le.trans after)

theorem pushUpdates_of_past (past : Past refused w.answered) :
    pushUpdates refused list patches w = .ok
      { w with
        recipients := Function.update w.recipients list.email
          (patches.foldl applyPatch (w.recipients list.email))
        answered := w.answered + patches.length } := by
  induction patches generalizing w with
  | nil =>
    rw [List.foldl_nil, Function.update_eq_self]
    rfl
  | cons patch rest ih =>
    have first : pushUpdate refused list patch w = .ok
        { w with
          recipients := Function.update w.recipients list.email
            (applyPatch (w.recipients list.email) patch)
          answered := w.answered + 1 } := call_of_ne (past _ le_rfl) rfl
    show (pushUpdate refused list patch w).bind (pushUpdates refused list rest) = _
    rw [first]
    refine (ih (past.later (Nat.le_succ _))).trans ?_
    simp only [Function.update_self, Function.update_idem, List.foldl_cons, List.length_cons,
      Nat.add_assoc, Nat.add_comm 1]

end Calls

/-! ## A list lets the address go -/

/-- **What the lists of these names let go**: the rows of the address, and on the cluster the address
where its row was enabled. -/
structure Lets (platform : Platform) (refused : Option ℕ) (email : String) (names : List String)
    (w w' : World) : Prop where
  sound : w'.table.Sound platform
  past : Past refused w'.answered
  holds : ∀ name address flag, w'.table.Holds name address flag ↔
    w.table.Holds name address flag ∧ ¬ (name ∈ names ∧ address = email)
  recipients : ∀ name address, address ∈ w'.recipients name ↔
    address ∈ w.recipients name ∧ ¬ (name ∈ names ∧ address = email ∧ w.table.Holds name email true)

section Leaving

variable {platform : Platform} {refused : Option ℕ} {email : String} {w : World} {list : MailingList}

theorem Lets.refl (sound : w.table.Sound platform) (past : Past refused w.answered) :
    Lets platform refused email [] w w where
  sound := sound
  past := past
  holds := by simp
  recipients := by simp

theorem Lets.trans {w' w'' : World} {names more : List String}
    (first : Lets platform refused email names w w') (second : Lets platform refused email more w' w'') :
    Lets platform refused email (names ++ more) w w'' where
  sound := second.sound
  past := second.past
  holds := by
    intro name address flag
    rw [second.holds, first.holds, List.mem_append]
    tauto
  recipients := by
    intro name address
    rw [second.recipients, first.recipients, first.holds, List.mem_append]
    tauto

theorem leaveList_lets (stored : platform.validateEmailAddress email = some email)
    (id : list.stalwartId ≠ none) (sound : w.table.Sound platform) (past : Past refused w.answered) :
    Lets platform refused email [list.email] w (leaveList platform refused email w list) := by
  have turned : [email].mapM platform.validateEmailAddress = some [email] :=
    mapM_eq_self fun other member => by rwa [List.mem_singleton.mp member]
  have equation := removeRecipients_eq sound turned id
  unfold leaveList
  rw [equation]
  show Lets platform refused email [list.email] w (World.left (pushUpdates refused list _ _))
  rw [pushUpdates_of_past (w := { w with
    table := { w.table with rows := w.table.rows.filter fun row => !leaving list [email] row } }) past]
  refine ⟨sound.filter _, past.later (Nat.le_add_right _ _), ?_, ?_⟩
  · intro name address flag
    show Table.Holds { w.table with rows := _ } name address flag ↔ _
    rw [holds_left, List.mem_singleton, List.mem_singleton]
  · intro name address
    show address ∈ Function.update w.recipients list.email
      ((changing _ false).foldl applyPatch (w.recipients list.email)) name ↔ _
    by_cases own : name = list.email
    · subst own
      rw [Function.update_self, mem_foldl_removes fun patch sent entry member =>
        (mem_changing sent member).2, named_changing, mem_removed, List.mem_singleton, List.mem_singleton]
      refine and_congr_right fun _ => not_congr ?_
      constructor
      · rintro ⟨held, rfl⟩
        exact ⟨rfl, rfl, held⟩
      · rintro ⟨-, rfl, held⟩
        exact ⟨held, rfl⟩
    · rw [Function.update_of_ne own, List.mem_singleton]
      exact (and_iff_left fun leaves => own leaves.1).symm

theorem foldl_leaveList_lets (stored : platform.validateEmailAddress email = some email)
    {joined : List MailingList} (ids : ∀ list ∈ joined, list.stalwartId ≠ none)
    (sound : w.table.Sound platform) (past : Past refused w.answered) :
    Lets platform refused email (joined.map (·.email)) w
      (joined.foldl (leaveList platform refused email) w) := by
  induction joined generalizing w with
  | nil => exact Lets.refl sound past
  | cons list rest ih =>
    have first := leaveList_lets stored (ids list List.mem_cons_self) sound past
    have later : ∀ other ∈ rest, other.stalwartId ≠ none :=
      fun other member => ids other (List.mem_cons_of_mem _ member)
    exact first.trans (ih later first.sound first.past)

end Leaving

/-! ## A list takes the address -/

/-- **What holds of the world** once these lists were joined, from the state of the request on. -/
structure Joined (platform : Platform) (s : State) (email : String) (names : List String) (w : World) :
    Prop where
  sound : w.table.Sound platform
  holds : ∀ name address flag, w.table.Holds name address flag ↔ s.table.Holds name address flag ∨
    (name ∈ names ∧ address = email ∧ flag = true ∧ ¬ s.table.Has name email)
  recipients : ∀ name address, address ∈ w.recipients name ↔ address ∈ s.recipients name ∨
    (name ∈ names ∧ address = email ∧ ¬ s.table.Has name email)

/-- A list of the state that takes the address: it is on the cluster, the address is not its own, and
the domain of the address is its tenant's. -/
structure Takes (s : State) (email : String) (list : MailingList) : Prop where
  here : s.lists list.email = some list
  id : list.stalwartId ≠ none
  other : list.email ≠ email
  own : s.owner (domainPart email) = some list.tenant

section Joining

variable {platform : Platform} {s : State} {refused : Option ℕ} {email : String} {w : World}
variable {list : MailingList} {names : List String}

theorem wantedRecipients_single (stored : platform.validateEmailAddress email = some email)
    (takes : Takes s email list) : wantedRecipients platform list s.owner [email] = some [email] := by
  have turned : [email].mapM platform.validateEmailAddress = some [email] :=
    mapM_eq_self fun other member => by rwa [List.mem_singleton.mp member]
  rw [wantedRecipients, turned, Option.map_some]
  refine Option.filter_eq_some_iff.mpr ⟨rfl, ?_⟩
  show (decide (list.email ∉ [email]) && assertAddressesDeliverable s.owner list.tenant [email]) = true
  rw [Bool.and_eq_true, decide_eq_true_iff, List.mem_singleton, assertAddressesDeliverable]
  refine ⟨takes.other, ?_⟩
  rw [List.all_cons, List.all_nil, Bool.and_true, decide_eq_true_iff, takes.own]
  intro _ holder held
  exact (Option.some.inj held).symm

theorem addRecipients_ends (id : list.stalwartId ≠ none)
    (passed : wantedRecipients platform list s.owner [email] = some [email]) (table : Table) :
    (addRecipients platform list s.owner table [email] false).ends =
      some (table.bulkInsert list (candidates table list [email]), candidates table list [email]) := by
  have pushed : addRecipients platform list s.owner table [email] true = _ := addRecipients_eq passed id
  have same : (addRecipients platform list s.owner table [email] false).ends =
      (addRecipients platform list s.owner table [email] true).ends := by
    rw [addRecipients, addRecipients, passed, Calls.ofOption_some_bind, Calls.ofOption_some_bind]
    simp only [Bool.false_eq_true, if_false, if_true, push_added id, Calls.send_bind_done, Calls.done_bind]
    rfl
  rw [same, pushed]

theorem joinList_of_has (stored : platform.validateEmailAddress email = some email)
    (takes : Takes s email list) (has : w.table.Has list.email email) :
    joinList platform refused s.owner email list w = .ok w := by
  have none : candidates w.table list [email] = [] := by
    refine List.eq_nil_iff_forall_not_mem.mpr fun address member => ?_
    obtain ⟨only, free⟩ := mem_candidates.mp member
    exact free (List.mem_singleton.mp only ▸ has)
  unfold joinList
  rw [addRecipients_ends takes.id (wantedRecipients_single stored takes), none]
  show pushUpdates refused list (pushRecipientChanges list [] []).sent _ = _
  rw [push_added takes.id]
  rfl

theorem joinList_of_not_has (stored : platform.validateEmailAddress email = some email)
    (takes : Takes s email list) (free : ¬ w.table.Has list.email email) :
    joinList platform refused s.owner email list w =
      pushUpdate refused list [(email, true)] { w with table := w.table.insert list email true } := by
  have one : candidates w.table list [email] = [email] := by
    refine List.filter_eq_self.mpr fun address member => ?_
    rw [decide_eq_true_iff, mem_emailsIn, List.mem_singleton.mp member]
    exact fun there => free there.1
  have row : w.table.bulkInsert list [email] = w.table.insert list email true := by
    show (if email ∈ (w.table.rowsOf list.email).map (·.email) then w.table
      else w.table.insert list email true) = _
    exact if_neg (mt mem_emails_rowsOf.mp free)
  unfold joinList
  rw [addRecipients_ends takes.id (wantedRecipients_single stored takes), one, row]
  show pushUpdates refused list (pushRecipientChanges list [email] []).sent _ = _
  rw [push_added takes.id]
  have patches : changing [email] true = [[(email, true)]] := by
    show batches 1000 [(email, true)] = [[(email, true)]]
    simp only [batches, List.length_singleton, Nat.reduceAdd, Nat.reduceSub, Nat.reduceDiv,
      List.range_one, List.map_singleton, Nat.zero_mul, List.drop_zero]
    rfl
  show pushUpdates refused list (changing [email] true) _ = _
  rw [patches]
  show (pushUpdate refused list [(email, true)] _).bind (pushUpdates refused list []) = _
  cases pushUpdate refused list [(email, true)] { w with table := w.table.insert list email true } with
  | error _ => rfl
  | ok _ => rfl

theorem Joined.has_iff (joined : Joined platform s email names w) (name : String) :
    w.table.Has name email ↔ s.table.Has name email ∨ name ∈ names := by
  rw [Lists.has_iff, Lists.has_iff]
  simp only [joined.holds]
  constructor
  · rintro ⟨flag, held | ⟨member, -⟩⟩
    · exact Or.inl ⟨flag, held⟩
    · exact Or.inr member
  · rintro (⟨flag, held⟩ | member)
    · exact ⟨flag, Or.inl held⟩
    · by_cases has : s.table.Has name email
      · obtain ⟨flag, held⟩ := Lists.has_iff.mp has
        exact ⟨flag, Or.inl held⟩
      · exact ⟨true, Or.inr ⟨member, trivial, rfl, has⟩⟩

/-- A list of which the address has a row, joined again or for the first time. -/
theorem Joined.again (joined : Joined platform s email names w) {name : String}
    (has : w.table.Has name email) : Joined platform s email (names ++ [name]) w := by
  have known := (joined.has_iff name).mp has
  refine ⟨joined.sound, fun other address flag => ?_, fun other address => ?_⟩
  · rw [joined.holds, List.mem_append, List.mem_singleton]
    refine or_congr_right (and_congr_left fun facts => (or_iff_left_of_imp ?_).symm)
    rintro rfl
    exact known.resolve_left facts.2.2
  · rw [joined.recipients, List.mem_append, List.mem_singleton]
    refine or_congr_right (and_congr_left fun facts => (or_iff_left_of_imp ?_).symm)
    rintro rfl
    exact known.resolve_left facts.2

theorem Joined.holds_insert (joined : Joined platform s email names w)
    (free : ¬ w.table.Has list.email email) (name address : String) (flag : Bool) :
    (w.table.insert list email true).Holds name address flag ↔ s.table.Holds name address flag ∨
      (name ∈ names ++ [list.email] ∧ address = email ∧ flag = true ∧ ¬ s.table.Has name email) := by
  have fresh : ¬ s.table.Has list.email email := fun has => free ((joined.has_iff _).mpr (Or.inl has))
  rw [Lists.holds_insert, joined.holds, List.mem_append, List.mem_singleton, or_assoc]
  refine or_congr_right ?_
  constructor
  · rintro (⟨member, facts⟩ | ⟨rfl, rfl, rfl⟩)
    · exact ⟨Or.inl member, facts⟩
    · exact ⟨Or.inr rfl, rfl, rfl, fresh⟩
  · rintro ⟨member | rfl, address, flag, rest⟩
    · exact Or.inl ⟨member, address, flag, rest⟩
    · exact Or.inr ⟨rfl, address, flag⟩

/-- The world in which the patch of a list is accepted. -/
def World.taken (w : World) (list : MailingList) (email : String) : World :=
  { w with
    table := w.table.insert list email true
    recipients := Function.update w.recipients list.email
      (applyPatch (w.recipients list.email) [(email, true)])
    answered := w.answered + 1 }

/-- The world in which it is refused. -/
def World.untaken (w : World) (list : MailingList) (email : String) : World :=
  { w with table := w.table.insert list email true, answered := w.answered + 1 }

theorem Joined.taken (joined : Joined platform s email names w)
    (stored : platform.validateEmailAddress email = some email)
    (free : ¬ w.table.Has list.email email) :
    Joined platform s email (names ++ [list.email]) (w.taken list email) := by
  have fresh : ¬ s.table.Has list.email email := fun has => free ((joined.has_iff _).mpr (Or.inl has))
  refine ⟨joined.sound.insert free stored, joined.holds_insert free, fun name address => ?_⟩
  show address ∈ Function.update w.recipients list.email _ name ↔ _
  rw [List.mem_append, List.mem_singleton]
  by_cases own : name = list.email
  · subst own
    rw [Function.update_self, mem_applyPatch_adds fun entry member => by rw [List.mem_singleton.mp member],
      joined.recipients, or_assoc]
    refine or_congr_right ?_
    show _ ∨ address ∈ [email] ↔ _
    rw [List.mem_singleton]
    constructor
    · rintro (⟨-, facts⟩ | rfl)
      · exact ⟨Or.inr rfl, facts⟩
      · exact ⟨Or.inr rfl, rfl, fresh⟩
    · rintro ⟨-, same, -⟩
      exact Or.inr same
  · rw [Function.update_of_ne own, joined.recipients]
    refine or_congr_right (and_congr_left fun _ => (or_iff_left own).symm)

theorem joinList_cases (refused : Option ℕ) (w : World)
    (stored : platform.validateEmailAddress email = some email)
    (takes : Takes s email list) :
    (w.table.Has list.email email ∧ joinList platform refused s.owner email list w = .ok w) ∨
    (¬ w.table.Has list.email email ∧ refused ≠ some w.answered ∧
      joinList platform refused s.owner email list w = .ok (w.taken list email)) ∨
    (¬ w.table.Has list.email email ∧ refused = some w.answered ∧
      joinList platform refused s.owner email list w = .error (w.untaken list email)) := by
  by_cases has : w.table.Has list.email email
  · exact Or.inl ⟨has, joinList_of_has stored takes has⟩
  · by_cases here : refused = some w.answered
    · refine Or.inr (Or.inr ⟨has, here, ?_⟩)
      rw [joinList_of_not_has stored takes has]
      exact call_of_eq here
    · refine Or.inr (Or.inl ⟨has, here, ?_⟩)
      rw [joinList_of_not_has stored takes has]
      exact call_of_ne here rfl

end Joining

/-! ## The loop over the lists -/

section Loop

variable {platform : Platform} {s : State} {refused : Option ℕ} {email : String} {w w' : World}
variable {joined front lists rest : List MailingList} {list : MailingList}

theorem joinLists_error (stored : platform.validateEmailAddress email = some email)
    (takes : ∀ list ∈ lists, Takes s email list)
    (begun : Joined platform s email (joined.map (·.email)) w)
    (raises : joinLists platform refused s.owner email joined lists w = .error (front, w')) :
    ∃ passed list rest w₀, lists = passed ++ list :: rest ∧ front = joined ++ passed ∧
      Joined platform s email (front.map (·.email)) w₀ ∧ ¬ w₀.table.Has list.email email ∧
      refused = some w₀.answered ∧ w' = w₀.untaken list email := by
  induction lists generalizing joined w with
  | nil => cases raises
  | cons list rest ih =>
    have later : ∀ other ∈ rest, Takes s email other :=
      fun other member => takes other (List.mem_cons_of_mem _ member)
    -- The list is joined: the rest of the loop raises, with one more list joined.
    have go : ∀ {w₁}, joinList platform refused s.owner email list w = .ok w₁ →
        Joined platform s email ((joined ++ [list]).map (·.email)) w₁ →
        ∃ passed other rest' w₀, list :: rest = passed ++ other :: rest' ∧ front = joined ++ passed ∧
          Joined platform s email (front.map (·.email)) w₀ ∧ ¬ w₀.table.Has other.email email ∧
          refused = some w₀.answered ∧ w' = w₀.untaken other email := by
      intro w₁ ok after
      rw [joinLists, ok] at raises
      obtain ⟨passed, other, rest', w₀, rfl, rfl, facts⟩ := ih later after raises
      exact ⟨list :: passed, other, rest', w₀, rfl, by rw [List.append_assoc, List.singleton_append], facts⟩
    have names : (joined ++ [list]).map (·.email) = joined.map (·.email) ++ [list.email] := by
      rw [List.map_append, List.map_singleton]
    rcases joinList_cases refused w stored (takes list List.mem_cons_self) with
      ⟨has, ok⟩ | ⟨free, -, ok⟩ | ⟨free, here, fails⟩
    · exact go ok (names ▸ begun.again has)
    · exact go ok (names ▸ begun.taken stored free)
    · rw [joinLists, fails] at raises
      obtain ⟨rfl, rfl⟩ := Prod.mk.inj (Except.error.inj raises)
      exact ⟨[], list, rest, w, rfl, (List.append_nil _).symm, begun, free, here, rfl⟩

theorem joinLists_through (stored : platform.validateEmailAddress email = some email)
    (takes : ∀ list ∈ front, Takes s email list)
    (begun : Joined platform s email (joined.map (·.email)) w) :
    ∃ w₀, Joined platform s email ((joined ++ front).map (·.email)) w₀ ∧ w.answered ≤ w₀.answered ∧
      ∀ refused, (∀ number, number < w₀.answered → w.answered ≤ number → refused ≠ some number) →
        ∀ rest, joinLists platform refused s.owner email joined (front ++ rest) w =
          joinLists platform refused s.owner email (joined ++ front) rest w₀ := by
  induction front generalizing joined w with
  | nil => exact ⟨w, by rwa [List.append_nil], le_rfl, fun _ _ _ => by rw [List.append_nil, List.nil_append]⟩
  | cons list front ih =>
    have later : ∀ other ∈ front, Takes s email other :=
      fun other member => takes other (List.mem_cons_of_mem _ member)
    have first := takes list List.mem_cons_self
    have names : (joined ++ [list]).map (·.email) = joined.map (·.email) ++ [list.email] := by
      rw [List.map_append, List.map_singleton]
    have more : joined ++ list :: front = (joined ++ [list]) ++ front := by
      rw [List.append_assoc, List.singleton_append]
    by_cases has : w.table.Has list.email email
    · obtain ⟨w₀, after, le, through⟩ := ih later (names ▸ begun.again has)
      refine ⟨w₀, more ▸ after, le, fun refused misses rest => ?_⟩
      rw [List.cons_append, joinLists, joinList_of_has stored first has, more]
      exact through refused misses rest
    · obtain ⟨w₀, after, le, through⟩ := ih later (names ▸ begun.taken stored has)
      have lt : w.answered < w₀.answered := le
      refine ⟨w₀, more ▸ after, lt.le, fun refused misses rest => ?_⟩
      have accepted : joinList platform refused s.owner email list w = .ok (w.taken list email) := by
        rw [joinList_of_not_has stored first has]
        exact call_of_ne (misses _ lt le_rfl) rfl
      rw [List.cons_append, joinLists, accepted, more]
      exact through refused (fun number before after => misses number before (Nat.le_of_succ_le after)) rest

/-- **What is left of the recipients** once the lists joined have let the address go: each has lost it,
whether it took it for this request or not. -/
theorem mem_recipients_undone (stored : platform.validateEmailAddress email = some email)
    (takes : ∀ list ∈ front, Takes s email list)
    (mirrors : ∀ list ∈ front, Mirrors s.table list.email (s.recipients list.email))
    (after : Joined platform s email (front.map (·.email)) w) (free : ¬ w.table.Has list.email email)
    (here : refused = some w.answered) :
    Past refused (front.foldl (leaveList platform refused email) (w.untaken list email)).answered ∧
    ∀ name address,
      address ∈ (front.foldl (leaveList platform refused email) (w.untaken list email)).recipients name ↔
        address ∈ s.recipients name ∧ ¬ (name ∈ front.map (·.email) ∧ address = email) := by
  have past : Past refused (w.untaken list email).answered := by
    intro number le same
    rw [here] at same
    exact absurd (Option.some.inj same) (Nat.lt_of_succ_le le).ne
  have lets := foldl_leaveList_lets stored (fun list member => (takes list member).id)
    (after.sound.insert free stored) past
  refine ⟨lets.past, fun name address => ?_⟩
  rw [lets.recipients]
  show (address ∈ w.recipients name ∧ ¬ (_ ∧ _ ∧ (w.table.insert list email true).Holds name email true)) ↔ _
  rw [after.recipients, after.holds_insert free]
  constructor
  · rintro ⟨there | ⟨member, same, fresh⟩, stays⟩
    · refine ⟨there, fun ⟨member, same⟩ => stays ⟨member, same, Or.inl ?_⟩⟩
      obtain ⟨other, inside, rfl⟩ := List.mem_map.mp member
      exact (mirrors other inside email).mp (same ▸ there)
    · exact absurd ⟨member, same, Or.inr ⟨List.mem_append_left _ member, rfl, rfl, fresh⟩⟩ stays
  · rintro ⟨there, stays⟩
    exact ⟨Or.inl there, fun leaves => stays ⟨leaves.1, leaves.2.1⟩⟩

end Loop

/-! ## The request as a whole -/

/-- **The condition**: the cluster had no account of the address; and where a list without a row of the
address is to be joined, the lists joined before it did not deliver to the address already. -/
def AccountRequest.IsSafe (platform : Platform) (s : State) (accounts : Finset String)
    (request : AccountRequest) : Prop :=
  (∀ email, platform.validateEmailAddress request.email = some email → email ∉ accounts) ∧
  ∀ email lists, request.validate platform s = some (email, lists) →
    ∀ front list rest, lists = front ++ list :: rest → list ∉ front →
      email ∉ (s.table.rowsOf list.email).map (·.email) →
        ∀ joined ∈ front, email ∉ s.recipients joined.email

section Requests

variable {platform : Platform} {s : State} {refused : Option ℕ} {email : String} {w w' : World}
variable {accounts : Finset String} {request : AccountRequest} {lists : List MailingList}

theorem validate_eq_some (mirrored : Mirrored platform s)
    (passed : request.validate platform s = some (email, lists)) :
    platform.validateEmailAddress request.email = some email ∧ ∀ list ∈ lists, Takes s email list := by
  obtain ⟨names, -, passed⟩ := Option.bind_eq_some_iff.mp passed
  obtain ⟨found, owning, passed⟩ := Option.bind_eq_some_iff.mp passed
  obtain ⟨address, form, passed⟩ := Option.bind_eq_some_iff.mp passed
  split at passed
  · rename_i checks
    obtain ⟨rfl, rfl⟩ := Prod.mk.inj (Option.some.inj passed)
    refine ⟨form, fun list member => ?_⟩
    obtain ⟨name, -, there⟩ := (mem_of_mapM owning).mp member
    obtain ⟨here, tenant⟩ := Option.filter_eq_some_iff.mp there
    obtain ⟨named, id⟩ := mirrored.own here
    have stored := validateEmailAddress_again form
    refine ⟨named ▸ here, id, ?_, ?_⟩
    · rintro same
      rw [named] at same
      rw [same, checks.2.1] at here
      cases here
    · rw [of_decide_eq_true tenant, ← checks.1,
        normalizeDomain_of_stored (validateEmailAddress_domain stored).1]
  · cases passed

theorem pushDestroy_of_past (past : Past refused w.answered) :
    World.left (pushDestroy refused email w) =
      { w with accounts := w.accounts.erase email, answered := w.answered + 1 } := by
  have accepted : pushDestroy refused email w =
      .ok { w with accounts := w.accounts.erase email, answered := w.answered + 1 } :=
    call_of_ne (past _ le_rfl) rfl
  rw [accepted]
  rfl

theorem afterInsert_of_mem (there : email ∈ w.accounts) :
    afterInsert refused email w = .error { w with answered := w.answered + 1 } := by
  have refuses : pushCreate refused email w = .error { w with answered := w.answered + 1 } := by
    unfold pushCreate World.call
    split
    · rfl
    · simp only [if_pos there]
  unfold afterInsert
  rw [refuses]
  rfl

theorem pushCreate_of_ne (free : email ∉ w.accounts) (other : refused ≠ some w.answered) :
    pushCreate refused email w =
      .ok { w with accounts := insert email w.accounts, answered := w.answered + 1 } :=
  call_of_ne other (if_neg free)

theorem pushCredentials_cases (refused : Option ℕ) (w : World) :
    (pushCredentials refused w = .ok { w with answered := w.answered + 2 }) ∨
    ∃ n, w.answered < n ∧ n ≤ w.answered + 2 ∧ refused = some (n - 1) ∧
      pushCredentials refused w = .error { w with answered := n } := by
  unfold pushCredentials
  by_cases first : refused = some w.answered
  · refine Or.inr ⟨w.answered + 1, by omega, by omega, first, ?_⟩
    rw [call_of_eq first]
    rfl
  · rw [call_of_ne first rfl, ok_bind]
    by_cases second : refused = some (w.answered + 1)
    · refine Or.inr ⟨w.answered + 2, by omega, by omega, second, ?_⟩
      exact call_of_eq (w := { w with answered := w.answered + 1 }) second
    · exact Or.inl (call_of_ne (w := { w with answered := w.answered + 1 }) second rfl)

theorem afterInsert_cases (refused : Option ℕ) (free : email ∉ w.accounts) :
    (afterInsert refused email w =
      .ok { w with accounts := insert email w.accounts, answered := w.answered + 3 }) ∨
    ((∃ n < w.answered + 3, refused = some n) ∧ ∃ w', afterInsert refused email w = .error w' ∧
      email ∉ w'.accounts ∧ w'.recipients = w.recipients) := by
  unfold afterInsert
  by_cases first : refused = some w.answered
  · have refuses : pushCreate refused email w = .error { w with answered := w.answered + 1 } :=
      call_of_eq first
    rw [refuses]
    exact Or.inr ⟨⟨w.answered, by omega, first⟩, _, rfl, free, rfl⟩
  · rw [pushCreate_of_ne free first, ok_bind]
    rcases pushCredentials_cases refused
        { w with accounts := insert email w.accounts, answered := w.answered + 1 } with
      ok | ⟨n, more, few, here, fails⟩
    · rw [ok]
      exact Or.inl rfl
    · have past : Past refused n := by
        intro number le same
        rw [here] at same
        have := Option.some.inj same
        simp only at more
        omega
      refine Or.inr ⟨⟨n - 1, by simp only at few; omega, here⟩, ?_⟩
      rw [fails]
      refine ⟨_, rfl, ?_⟩
      rw [pushDestroy_of_past (w := { w with accounts := _, answered := n }) past]
      exact ⟨Finset.notMem_erase _ _, rfl⟩

theorem joined_nil (mirrored : Mirrored platform s) (accounts : Finset String) (answered : ℕ) :
    Joined platform s email [] ⟨s.table, accounts, s.recipients, answered⟩ where
  sound := mirrored.sound
  holds := by simp
  recipients := by simp

/-- **A list's patch refused**: the recipients are as they were exactly when no list joined by then
delivered to the address before. -/
theorem recipients_undone_iff {front : List MailingList} {list : MailingList}
    (stored : platform.validateEmailAddress email = some email) (mirrored : Mirrored platform s)
    (takes : ∀ list ∈ front, Takes s email list)
    (after : Joined platform s email (front.map (·.email)) w) (free : ¬ w.table.Has list.email email)
    (here : refused = some w.answered) :
    let undone := World.left (pushDestroy refused email
      (front.foldl (leaveList platform refused email) (w.untaken list email)))
    email ∉ undone.accounts ∧
      (undone.recipients = s.recipients ↔ ∀ joined ∈ front, email ∉ s.recipients joined.email) := by
  intro undone
  obtain ⟨past, left⟩ := mem_recipients_undone stored takes
    (fun list member => mirrored.mirrors (takes list member).here) after free here
  have equation : undone = _ := pushDestroy_of_past past
  rw [equation]
  refine ⟨Finset.notMem_erase _ _, ?_⟩
  show World.recipients (front.foldl _ _) = _ ↔ _
  constructor
  · intro same joined member there
    rw [← same, left] at there
    exact there.2 ⟨List.mem_map_of_mem member, rfl⟩
  · intro safe
    funext name
    ext address
    rw [left]
    refine and_iff_left_of_imp ?_
    rintro there ⟨member, rfl⟩
    obtain ⟨joined, inside, rfl⟩ := List.mem_map.mp member
    exact safe joined inside there

theorem free_of_joined {front : List MailingList} {list : MailingList}
    (takes : ∀ joined ∈ front, Takes s email joined) (own : Takes s email list)
    (after : Joined platform s email (front.map (·.email)) w) :
    ¬ w.table.Has list.email email ↔
      email ∉ (s.table.rowsOf list.email).map (·.email) ∧ list ∉ front := by
  have member : list.email ∈ front.map (·.email) ↔ list ∈ front := by
    refine ⟨fun there => ?_, List.mem_map_of_mem⟩
    obtain ⟨joined, inside, same⟩ := List.mem_map.mp there
    have found := (takes joined inside).here
    rw [same, own.here] at found
    exact Option.some.inj found ▸ inside
  rw [after.has_iff, member, not_or, mem_emails_rowsOf]

/-- The state of a request before its first call. -/
def World.start (s : State) (accounts : Finset String) : World := ⟨s.table, accounts, s.recipients, 0⟩

theorem createAccount_of_invalid (refuses : request.validate platform s = none) :
    createAccount platform refused s accounts request = .error (World.start s accounts) := by
  unfold createAccount
  rw [refuses]
  rfl

theorem createAccount_of_error (passed : request.validate platform s = some (email, lists))
    (fails : afterInsert refused email (World.start s accounts) = .error w) :
    createAccount platform refused s accounts request = .error w := by
  unfold createAccount
  rw [passed]
  show (afterInsert refused email (World.start s accounts)).bind _ = _
  rw [fails]
  rfl

theorem createAccount_of_ok (passed : request.validate platform s = some (email, lists))
    (inserted : afterInsert refused email (World.start s accounts) = .ok w) :
    createAccount platform refused s accounts request =
      match joinLists platform refused s.owner email [] lists w with
      | .ok w => .ok w
      | .error (joined, w) => .error (World.left (pushDestroy refused email
          (joined.foldl (leaveList platform refused email) w))) := by
  unfold createAccount
  rw [passed]
  show (afterInsert refused email (World.start s accounts)).bind _ = _
  rw [inserted]
  rfl

theorem exists_refused_patch (mirrored : Mirrored platform s) {front rest : List MailingList}
    {list : MailingList} (passed : request.validate platform s = some (email, front ++ list :: rest))
    (absent : email ∉ accounts) (apart : list ∉ front)
    (unlisted : email ∉ (s.table.rowsOf list.email).map (·.email)) :
    ∃ refused w, createAccount platform refused s accounts request = .error w ∧
      (w.recipients = s.recipients ↔ ∀ joined ∈ front, email ∉ s.recipients joined.email) := by
  obtain ⟨form, takes⟩ := validate_eq_some mirrored passed
  have stored := validateEmailAddress_again form
  have before : ∀ joined ∈ front, Takes s email joined :=
    fun joined member => takes joined (List.mem_append_left _ member)
  have own : Takes s email list := takes list (List.mem_append_right _ List.mem_cons_self)
  have begun : Joined platform s email (([] : List MailingList).map (·.email))
      ⟨s.table, insert email accounts, s.recipients, 3⟩ := joined_nil mirrored _ _
  obtain ⟨w₀, after, least, through⟩ := joinLists_through stored before begun
  rw [List.nil_append] at after
  have free : ¬ w₀.table.Has list.email email :=
    (free_of_joined before own after).mpr ⟨unlisted, apart⟩
  have inserted : afterInsert (some w₀.answered) email (World.start s accounts) =
      .ok ⟨s.table, insert email accounts, s.recipients, 3⟩ := by
    rcases afterInsert_cases (w := World.start s accounts) (some w₀.answered) absent with
      done | ⟨⟨n, few, same⟩, -⟩
    · exact done
    · have late : 3 ≤ n := Option.some.inj same ▸ least
      exact absurd few (Nat.not_lt.mpr late)
  have fails : joinLists platform (some w₀.answered) s.owner email [] (front ++ list :: rest)
      ⟨s.table, insert email accounts, s.recipients, 3⟩ = .error (front, w₀.untaken list email) := by
    have refuses : joinList platform (some w₀.answered) s.owner email list w₀ =
        .error (w₀.untaken list email) := by
      rw [joinList_of_not_has stored own free]
      exact call_of_eq rfl
    rw [through (some w₀.answered) (fun number lt _ same => lt.ne (Option.some.inj same).symm),
      List.nil_append, joinLists, refuses]
  have raises := createAccount_of_ok passed inserted
  rw [fails] at raises
  exact ⟨_, _, raises, (recipients_undone_iff stored mirrored before after free rfl).2⟩

/-- **How a request raises** that passed its checks: before any list is patched, or at the patch of a list
without a row of the address. No account is left. -/
theorem createAccount_error (mirrored : Mirrored platform s)
    (passed : request.validate platform s = some (email, lists)) (absent : email ∉ accounts)
    (raises : createAccount platform refused s accounts request = .error w) :
    email ∉ w.accounts ∧ (w.recipients = s.recipients ∨
      ∃ front list rest, lists = front ++ list :: rest ∧ list ∉ front ∧
        email ∉ (s.table.rowsOf list.email).map (·.email) ∧
        (w.recipients = s.recipients ↔ ∀ joined ∈ front, email ∉ s.recipients joined.email)) := by
  obtain ⟨form, takes⟩ := validate_eq_some mirrored passed
  have stored := validateEmailAddress_again form
  rcases afterInsert_cases (w := World.start s accounts) refused absent with
    inserted | ⟨-, left, fails, gone, same⟩
  · rw [createAccount_of_ok passed inserted] at raises
    split at raises
    · cases raises
    · rename_i front left fails
      obtain rfl := Except.error.inj raises
      obtain ⟨front, list, rest, w₀, rfl, rfl, after, free, here, rfl⟩ :=
        joinLists_error stored takes (joined_nil mirrored _ _) fails
      have before : ∀ joined ∈ front, Takes s email joined :=
        fun joined member => takes joined (List.mem_append_left _ member)
      have own : Takes s email list := takes list (List.mem_append_right _ List.mem_cons_self)
      obtain ⟨unlisted, apart⟩ := (free_of_joined before own after).mp free
      obtain ⟨gone, unchanged⟩ := recipients_undone_iff stored mirrored before after free here
      exact ⟨gone, Or.inr ⟨front, list, rest, rfl, apart, unlisted, unchanged⟩⟩
  · rw [createAccount_of_error passed fails] at raises
    obtain rfl := Except.error.inj raises
    exact ⟨gone, Or.inl same⟩

theorem absent_of_harmless (mirrored : Mirrored platform s)
    (form : platform.validateEmailAddress request.email = some email)
    (harmless : ∀ w, createAccount platform none s accounts request = .error w → email ∉ w.accounts) :
    email ∉ accounts := by
  intro there
  cases passed : request.validate platform s with
  | none => exact harmless _ (createAccount_of_invalid passed) there
  | some found =>
    obtain ⟨address, lists⟩ := found
    obtain rfl : address = email := Option.some.inj ((validate_eq_some mirrored passed).1.symm.trans form)
    exact harmless _ (createAccount_of_error passed (afterInsert_of_mem there)) there

/-- **A failed account creation leaves no trace exactly when** the cluster had no account of the address,
and no list joined before one without a row of it delivered to it already. -/
theorem failed_creation_leaves_no_trace {owner : String → Option String}
    (reached : Reaches (Lists.step platform) anyStep (State.initial owner) s) (accounts : Finset String)
    (request : AccountRequest) :
    (∀ refused w, createAccount platform refused s accounts request = .error w →
      (∀ email, platform.validateEmailAddress request.email = some email → email ∉ w.accounts) ∧
        ∀ list, w.recipients list = s.recipients list) ↔
      request.IsSafe platform s accounts := by
  have mirrored := mirrored_of_reaches reached
  constructor
  · intro harmless
    have absent : ∀ email, platform.validateEmailAddress request.email = some email → email ∉ accounts :=
      fun email form => absent_of_harmless mirrored form fun w raises => (harmless none w raises).1 email form
    refine ⟨absent, ?_⟩
    rintro email lists passed front list rest rfl apart unlisted
    obtain ⟨refused, w, raises, unchanged⟩ := exists_refused_patch mirrored passed
      (absent email (validate_eq_some mirrored passed).1) apart unlisted
    exact unchanged.mp (funext (harmless refused w raises).2)
  · rintro ⟨absent, safe⟩ refused w raises
    cases passed : request.validate platform s with
    | none =>
      obtain rfl := Except.error.inj ((createAccount_of_invalid passed).symm.trans raises)
      exact ⟨absent, fun _ => rfl⟩
    | some found =>
      obtain ⟨email, lists⟩ := found
      obtain ⟨form, -⟩ := validate_eq_some mirrored passed
      obtain ⟨gone, left⟩ := createAccount_error mirrored passed (absent email form) raises
      refine ⟨fun address same => Option.some.inj (form.symm.trans same) ▸ gone, ?_⟩
      rcases left with same | ⟨front, list, rest, split, apart, unlisted, unchanged⟩
      · exact congrFun same
      · exact congrFun (unchanged.mpr (safe email lists passed front list rest split apart unlisted))

end Requests

/-! ## Two lists -/

/-- The tenant's domain. -/
def ownDomain : String → Option String := fun domain => if domain = "a.io" then some "t" else none

/-- Its two lists. -/
def twoLists : List Action :=
  [.createMailingList "team@a.io" "t" "1", .createMailingList "news@a.io" "t" "2"]

/-- An account that is to join both. -/
def ann : AccountRequest := ⟨"t", "ann@a.io", ["team@a.io", "news@a.io"], true⟩

/-- Neither list delivers to the address yet: however the request fails, it leaves no trace. -/
theorem failed_creation_of_ann :
    ∃ s, Reaches (Lists.step asciiPlatform) anyStep (State.initial ownDomain) s ∧
      (ann.validate asciiPlatform s).isSome = true ∧
      ∀ refused w, createAccount asciiPlatform refused s ∅ ann = .error w →
        (∀ email, asciiPlatform.validateEmailAddress ann.email = some email → email ∉ w.accounts) ∧
          ∀ list, w.recipients list = s.recipients list := by
  have ends : (run (Lists.step asciiPlatform) (State.initial ownDomain) twoLists).map
      (fun s => (s.table.rows, (ann.validate asciiPlatform s).isSome)) = some ([], true) := by decide +kernel
  obtain ⟨s, ran, same⟩ := Option.map_eq_some_iff.mp ends
  obtain ⟨none, passes⟩ := Prod.mk.inj same
  have reached := reaches_of_run (runMeets_of_forall fun _ _ _ => trivial) ran
  refine ⟨s, reached, passes, (failed_creation_leaves_no_trace reached ∅ ann).mpr ⟨?_, ?_⟩⟩
  · exact fun email _ => Finset.notMem_empty email
  · rintro email lists passed front list rest rfl - - joined member there
    have mirrored := mirrored_of_reaches reached
    have takes := (validate_eq_some mirrored passed).2 joined (List.mem_append_left _ member)
    obtain ⟨row, inside, -⟩ := (mirrored.mirrors takes.here email).mp there
    rw [none] at inside
    cases inside

/-- **A list that delivered to the address already** loses it when the patch of the next list is
refused. -/
theorem already_delivering :
    ∃ s, Reaches (Lists.step asciiPlatform) anyStep (State.initial ownDomain) s ∧
      ∃ w, createAccount asciiPlatform (some 3) s ∅ ann = .error w ∧
        s.recipients "team@a.io" = {"ann@a.io"} ∧ w.recipients "team@a.io" = ∅ := by
  have ends : (run (Lists.step asciiPlatform) (State.initial ownDomain)
      (twoLists ++ [Action.request "team@a.io" (.addRecipients ["ann@a.io"])])).map (fun s =>
        ((createAccount asciiPlatform (some 3) s ∅ ann).toOption.isNone, s.recipients "team@a.io",
          (World.left (createAccount asciiPlatform (some 3) s ∅ ann)).recipients "team@a.io")) =
      some (true, {"ann@a.io"}, ∅) := by decide +kernel
  obtain ⟨s, ran, same⟩ := Option.map_eq_some_iff.mp ends
  obtain ⟨raises, same⟩ := Prod.mk.inj same
  obtain ⟨before, after⟩ := Prod.mk.inj same
  refine ⟨s, reaches_of_run (runMeets_of_forall fun _ _ _ => trivial) ran, ?_⟩
  cases ending : createAccount asciiPlatform (some 3) s ∅ ann with
  | ok w =>
    rw [ending] at raises
    cases raises
  | error w =>
    rw [ending] at after
    exact ⟨w, rfl, before, after⟩

end SuiteCloud.Mail.Lists.Creation
