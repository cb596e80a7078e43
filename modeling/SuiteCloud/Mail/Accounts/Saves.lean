/-
**Saves of an account, one after the other: the mirror, the tenant's login and the limits.**

### What is proved

* `placed_cases` — what placing the Suite Cloud row makes of the rows; `subperm_rowIds_placed`,
  `hasLogin_placed`, `mem_rowIds_placed` — it takes rows out, never in, but for the login.
* `validate_eq_some` — what a save that passes `validate` goes on with, kind by kind.
* `start_drawn` — **the rows of the baseline mirror the cluster**, wherever they are from.
* `open_save`, `closed_save`, `requests`, `inserts`, `rotates` — what each kind of save leaves.
* `isFine_step` — one step keeps the account in shape.
* `credentials_hold` — **after every save of a run** the rows mirror the cluster, the login is there and
  first, and no kind has more rows than its limit, where no save takes a credential out while it disables
  the account, and none of a disabled account lowers a limit below its rows or enables it without its login
  first.
* `credential_outlives_row` — a row taken out by the save that disables the account.
-/

import SuiteCloud.Mail.Accounts.Mirror

namespace SuiteCloud.Mail.Accounts

open SuiteCloud.Library

/-! ## The login -/

/-- **The tenant's login**: one row is named Suite Cloud, and it is the first. -/
def HasLogin (rows : List CredentialRow) : Prop :=
  ∃ rest, rows.map (·.description) = siteLogin :: rest ∧ siteLogin ∉ rest

section Login

variable {createdAt : ℕ → String} {kind : Kind} {limit : Option ℤ} {rows placed : List CredentialRow} {id : ℕ}

theorem hasLogin_cons {login : CredentialRow} (named : login.description = siteLogin) :
    HasLogin (login :: rows.filter (·.description ≠ siteLogin)) := by
  refine ⟨(rows.filter (·.description ≠ siteLogin)).map (·.description), ?_, ?_⟩
  · rw [List.map_cons, named]
  · intro member
    obtain ⟨row, inside, same⟩ := List.mem_map.mp member
    exact of_decide_eq_true (List.mem_filter.mp inside).2 same

theorem makeRoom_sublist (rounds : ℕ) : (makeRoom createdAt limit rounds rows).Sublist rows := by
  induction rounds generalizing rows with
  | zero => exact List.Sublist.refl rows
  | succ rounds ih =>
    unfold makeRoom
    split
    · split
      · exact List.Sublist.refl rows
      · exact ih.trans List.erase_sublist
    · exact List.Sublist.refl rows

theorem makeRoom_of_not_over (fits : isOver limit rows = false) (rounds : ℕ) :
    makeRoom createdAt limit rounds rows = rows := by
  cases rounds with
  | zero => rfl
  | succ rounds =>
    unfold makeRoom
    rw [if_neg (by rw [fits]; exact Bool.false_ne_true)]

theorem placed_cases (done : placeSiteLogin createdAt kind limit rows = some placed) :
    (∃ login, rows.filter (·.description = siteLogin) = [login] ∧
      placed = login :: rows.filter (·.description ≠ siteLogin)) ∨
    (rows.filter (·.description = siteLogin) = [] ∧ kind.alwaysPresent = true ∧
      placed = loginRow :: (makeRoom createdAt limit (rows.length + 1) (rows ++ [loginRow])).filter
        (·.description ≠ siteLogin)) ∨
    (rows.filter (·.description = siteLogin) = [] ∧ kind.alwaysPresent = false ∧ placed = rows) := by
  unfold placeSiteLogin at done
  split at done
  · next missing =>
    split at done
    · next always => exact Or.inr (Or.inl ⟨missing, always, (Option.some.inj done).symm⟩)
    · next never =>
      exact Or.inr (Or.inr ⟨missing, Bool.eq_false_iff.mpr never, (Option.some.inj done).symm⟩)
  · next login found => exact Or.inl ⟨login, found, (Option.some.inj done).symm⟩
  · exact nomatch done

theorem rowIds_append (rows others : List CredentialRow) : rowIds (rows ++ others) = rowIds rows ++ rowIds others :=
  List.filterMap_append

theorem rowIds_sublist {others : List CredentialRow} (sub : rows.Sublist others) :
    (rowIds rows).Sublist (rowIds others) := sub.filterMap _

theorem perm_login_cons {login : CredentialRow} (found : rows.filter (·.description = siteLogin) = [login]) :
    (login :: rows.filter (·.description ≠ siteLogin)).Perm rows := by
  have split := List.filter_append_perm (fun row : CredentialRow => decide (row.description = siteLogin)) rows
  rw [found, List.singleton_append] at split
  simpa only [decide_not, ne_eq] using split

theorem rowIds_append_loginRow : rowIds (rows ++ [loginRow]) = rowIds rows := by
  rw [rowIds_append]
  exact List.append_nil _

theorem subperm_rowIds_placed (done : placeSiteLogin createdAt kind limit rows = some placed) :
    (rowIds placed).Subperm (rowIds rows) := by
  rcases placed_cases done with ⟨login, found, rfl⟩ | ⟨-, -, rfl⟩ | ⟨-, -, rfl⟩
  · exact ((perm_login_cons found).filterMap _).subperm
  · have room : (rowIds ((makeRoom createdAt limit (rows.length + 1) (rows ++ [loginRow])).filter
        (·.description ≠ siteLogin))).Sublist (rowIds (rows ++ [loginRow])) :=
      rowIds_sublist (List.filter_sublist.trans (makeRoom_sublist _))
    rw [rowIds_append_loginRow] at room
    exact room.subperm
  · exact List.Subperm.refl _

theorem hasLogin_placed (done : placeSiteLogin createdAt kind limit rows = some placed)
    (always : kind.alwaysPresent = true) : HasLogin placed := by
  rcases placed_cases done with ⟨login, found, rfl⟩ | ⟨-, -, rfl⟩ | ⟨-, never, -⟩
  · have member : login ∈ rows.filter (·.description = siteLogin) := by
      rw [found]
      exact List.mem_cons_self
    exact hasLogin_cons (of_decide_eq_true (List.mem_filter.mp member).2)
  · exact hasLogin_cons rfl
  · exact nomatch always.symm.trans never

/-- **No id goes**, where the login is there or there is room for it. -/
theorem mem_rowIds_placed (done : placeSiteLogin createdAt kind limit rows = some placed)
    (room : kind.alwaysPresent = true →
      (∃ row ∈ rows, row.description = siteLogin) ∨ isOver limit (rows ++ [loginRow]) = false)
    (member : id ∈ rowIds rows) : id ∈ rowIds placed := by
  rcases placed_cases done with ⟨login, found, rfl⟩ | ⟨missing, always, rfl⟩ | ⟨-, -, rfl⟩
  · exact ((perm_login_cons found).filterMap _).mem_iff.mpr member
  · have unnamed : ∀ row ∈ rows, row.description ≠ siteLogin := fun row inside named =>
      List.filter_eq_nil_iff.mp missing row inside (decide_eq_true named)
    rcases room always with ⟨row, inside, named⟩ | fits
    · exact absurd named (unnamed row inside)
    · rw [makeRoom_of_not_over fits]
      obtain ⟨row, inside, identified⟩ := mem_rowIds.mp member
      refine mem_rowIds.mpr ⟨row, List.mem_cons_of_mem _ (List.mem_filter.mpr ⟨?_, ?_⟩), identified⟩
      · exact List.mem_append_left _ inside
      · exact decide_eq_true (unnamed row inside)
  · exact member

end Login

/-! ## `validate` -/

section Validate

variable {cluster : Cluster} {createdAt : ℕ → String} {before : Option MailAccount} {minted : Kind → Bool}
  {edit checked : Edit} {kind : Kind} {result : Loaded}

/-- The save goes on with the rows of each kind, all with a description. -/
structure IsChecked (cluster : Cluster) (createdAt : ℕ → String) (before : Option MailAccount)
    (minted : Kind → Bool) (edit checked : Edit) : Prop where
  quotas : validateQuotas edit.after = true
  rows : ∀ kind, validateKind cluster createdAt before (minted kind) edit kind =
    some ⟨checked.after.credentials kind, checked.loaded kind⟩
  described : ∀ kind, ∀ row ∈ checked.after.credentials kind, row.description ≠ ""
  rest : checked = { edit with
    after := { edit.after with credentials := checked.after.credentials }
    loaded := checked.loaded }

theorem validate_eq_some (passed : validate cluster createdAt before minted edit = some checked) :
    IsChecked cluster createdAt before minted edit checked := by
  unfold validate at passed
  split at passed
  · next quotas =>
    obtain ⟨appPasswords, first, passed⟩ := Option.bind_eq_some_iff.mp passed
    obtain ⟨apiKeys, second, passed⟩ := Option.bind_eq_some_iff.mp passed
    split at passed
    · next described =>
      obtain rfl := Option.some.inj passed
      rw [List.all_append, Bool.and_eq_true, List.all_eq_true, List.all_eq_true] at described
      refine ⟨quotas, fun kind => ?_, fun kind row member => ?_, rfl⟩
      · cases kind with
        | appPassword => exact first
        | apiKey => exact second
      · cases kind with
        | appPassword => exact of_decide_eq_true (described.1 row member)
        | apiKey => exact of_decide_eq_true (described.2 row member)
    · exact nomatch passed
  · exact nomatch passed

section Checked

variable (check : IsChecked cluster createdAt before minted edit checked)
include check

theorem IsChecked.after_eq :
    checked.after = { edit.after with credentials := checked.after.credentials } :=
  congrArg Edit.after check.rest

theorem IsChecked.enabled : checked.after.enabled = edit.after.enabled := by rw [check.after_eq]

theorem IsChecked.stalwartId : checked.after.stalwartId = edit.after.stalwartId := by rw [check.after_eq]

theorem IsChecked.limit (kind : Kind) : checked.after.limit kind = edit.after.limit kind := by
  rw [check.after_eq]
  rfl

end Checked

theorem validateKind_open (opened : ∀ account ∈ before, account.enabled = true) {flagged : Bool}
    (passed : validateKind cluster createdAt before flagged edit kind = some result) :
    placeSiteLogin createdAt kind (edit.after.limit kind) (startRows cluster createdAt before edit kind).rows =
        some result.rows ∧
      isOver (edit.after.limit kind) result.rows = false ∧
      result.fetched = (startRows cluster createdAt before edit kind).fetched := by
  have enabled : (before.any fun account => account.enabled = false) = false := by
    cases before with
    | none => rfl
    | some account => exact decide_eq_false (by rw [opened account rfl]; exact nofun)
  unfold validateKind at passed
  simp only [enabled, Bool.false_eq_true, if_false] at passed
  split at passed
  · obtain ⟨rows, placed, passed⟩ := Option.bind_eq_some_iff.mp passed
    split at passed
    · exact nomatch passed
    · next fits =>
      obtain rfl := Option.some.inj passed
      exact ⟨placed, Bool.eq_false_iff.mpr fits, rfl⟩
  · exact nomatch passed

theorem validateKind_closed {account : MailAccount} (disabled : account.enabled = false) {flagged : Bool}
    (passed : validateKind cluster createdAt (some account) flagged edit kind = some result) :
    (∀ row, row ∈ edit.after.credentials kind ↔ row ∈ account.credentials kind) ∧
      result = ⟨edit.after.credentials kind, edit.loaded kind⟩ := by
  have shut : ((some account).any fun account => account.enabled = false) = true := decide_eq_true disabled
  unfold validateKind at passed
  rw [if_pos shut] at passed
  split at passed
  · next same =>
    unfold keepMirror at same
    rw [Bool.and_eq_true, List.all_eq_true, List.all_eq_true] at same
    refine ⟨fun row => ⟨fun member => ?_, fun member => ?_⟩, (Option.some.inj passed).symm⟩
    · exact of_decide_eq_true (same.1 row member)
    · exact of_decide_eq_true (same.2 row member)
  · exact nomatch passed

theorem limit_pos {account : MailAccount} (valid : validateQuotas account = true) {limit : ℤ}
    (set : account.limit kind = some limit) : 0 < limit := by
  unfold validateQuotas at valid
  rw [Bool.and_eq_true, List.all_eq_true] at valid
  obtain ⟨entry, found, rfl⟩ := Option.map_eq_some_iff.mp set
  have member := Dict.mem_of_mem_ofList (List.mem_of_find?_eq_some found)
  exact of_decide_eq_true (valid.2 entry member)

theorem length_le_limit {account : MailAccount} (valid : validateQuotas account = true)
    {rows : List CredentialRow} (fits : isOver (account.limit kind) rows = false) {limit : ℤ}
    (set : account.limit kind = some limit) : (rows.length : ℤ) ≤ limit := by
  have positive := limit_pos valid set
  rw [set, isOver, Option.any_some, decide_eq_false_iff_not] at fits
  by_contra more
  exact fits ⟨by omega, by omega⟩

end Validate

/-! ## The rows a save starts from -/

section Start

variable {s : State} {before : MailAccount} {loads : Kind → Bool} {edit : Edit} {kind : Kind}

/-- Nothing is mirrored yet, or everything. -/
def IsMirroredOrEmpty (credentials : ℕ → Option Credential) (rows : List CredentialRow) : Prop :=
  rows = [] ∨ IsMirrored credentials rows

theorem rowIds_filter_isNone (rows : List CredentialRow) :
    rowIds (rows.filter (·.credentialId.isNone)) = [] := by
  refine List.eq_nil_iff_forall_not_mem.mpr fun id member => ?_
  obtain ⟨row, inside, identified⟩ := mem_rowIds.mp member
  have unidentified := (List.mem_filter.mp inside).2
  rw [identified] at unidentified
  exact nomatch unidentified

theorem rowIds_load (rows : List CredentialRow) :
    rowIds (load s.cluster s.createdAt kind rows).rows = rowIds (liveRows s.cluster s.createdAt kind) := by
  show rowIds (liveRows s.cluster s.createdAt kind ++ rows.filter (·.credentialId.isNone)) = _
  rw [rowIds_append, rowIds_filter_isNone, List.append_nil]

theorem isDrawnFrom_load (rows : List CredentialRow) :
    IsDrawnFrom (s.cluster.credentials kind) (load s.cluster s.createdAt kind rows).rows := by
  have live : IsMirrored (s.cluster.credentials kind) (liveRows s.cluster s.createdAt kind) :=
    isMirrored_liveRows
  constructor
  · rw [rowIds_load]
    exact nodup_rowIds live.distinct
  · intro id member
    rw [rowIds_load] at member
    exact live.mem_rowIds_iff.mp member

theorem credentials_opened (kind : Kind) : (s.opened before loads).after.credentials kind =
    if loads kind then (load s.cluster s.createdAt kind (before.credentials kind)).rows
    else before.credentials kind := by
  show Loaded.rows (if loads kind then _ else _) = _
  split
  · rfl
  · rfl

theorem isSome_of_mem_opened {id : ℕ}
    (mirrored : IsMirroredOrEmpty (s.cluster.credentials kind) (before.credentials kind))
    (member : id ∈ rowIds ((s.opened before loads).after.credentials kind)) :
    (s.cluster.credentials kind id).isSome := by
  rw [credentials_opened] at member
  split at member
  · exact (isDrawnFrom_load _).there id member
  · rcases mirrored with none | mirrored
    · rw [none] at member
      exact nomatch member
    · exact mirrored.mem_rowIds_iff.mp member

theorem isDrawnFrom_request
    (mirrored : IsMirroredOrEmpty (s.cluster.credentials kind) (before.credentials kind))
    (drawn : isDrawn (edit.after.credentials kind) ((s.opened before loads).after.credentials kind) = true) :
    IsDrawnFrom (s.cluster.credentials kind) (edit.after.credentials kind) := by
  unfold isDrawn at drawn
  rw [Bool.and_eq_true, decide_eq_true_iff, List.all_eq_true] at drawn
  refine ⟨drawn.1, fun id member => ?_⟩
  obtain ⟨row, inside, identified⟩ := mem_rowIds.mp member
  have listed := drawn.2 row inside
  rw [identified, Option.all_some, decide_eq_true_iff] at listed
  exact isSome_of_mem_opened mirrored listed

/-- **What an open account's save starts from**: rows with ids of the cluster's, and a baseline that
mirrors it, from the saved rows or from a load. -/
theorem start_drawn (placed : before.stalwartId.isSome)
    (mirrored : IsMirroredOrEmpty (s.cluster.credentials kind) (before.credentials kind))
    (loaded : edit.loaded = (s.opened before loads).loaded)
    (drawn : isDrawn (edit.after.credentials kind) ((s.opened before loads).after.credentials kind) = true) :
    IsDrawnFrom (s.cluster.credentials kind) (startRows s.cluster s.createdAt (some before) edit kind).rows ∧
      ∀ checked : Edit, checked.loaded kind = (startRows s.cluster s.createdAt (some before) edit kind).fetched →
        IsMirrored (s.cluster.credentials kind) (knownRows before checked kind) := by
  have live : IsMirrored (s.cluster.credentials kind) (liveRows s.cluster s.createdAt kind) :=
    isMirrored_liveRows
  have fetched : edit.loaded kind = [] ∨ edit.loaded kind = liveRows s.cluster s.createdAt kind := by
    rw [loaded]
    show Loaded.fetched (if loads kind then _ else _) = [] ∨ Loaded.fetched (if loads kind then _ else _) = _
    split
    · exact Or.inr rfl
    · exact Or.inl rfl
  unfold startRows
  split
  · next unmirrored =>
    obtain ⟨none, -⟩ := of_decide_eq_true unmirrored.1
    refine ⟨isDrawnFrom_load _, fun checked same => ?_⟩
    have same : checked.loaded kind = liveRows s.cluster s.createdAt kind := same
    unfold knownRows
    rw [same]
    split
    · next nothing =>
      rw [none, ← nothing]
      exact live
    · exact live
  · next kept =>
    refine ⟨isDrawnFrom_request mirrored drawn, fun checked same => ?_⟩
    have same : checked.loaded kind = edit.loaded kind := same
    unfold knownRows
    rw [same]
    split
    · next nothing =>
      refine mirrored.resolve_left fun none => kept ⟨decide_eq_true ⟨none, placed⟩, nothing⟩
    · next some =>
      rw [fetched.resolve_left some]
      exact live

end Start

/-! ## What holds after a save -/

/-- **The credentials after a save**, and once what it took out is revoked: the rows mirror the cluster,
the login is there unless the account was disabled and stays so, and no limit is passed. -/
structure CredentialsHold (before : Option MailAccount) (s : State) (account : MailAccount) : Prop where
  mirrored : ∀ kind, IsMirrored (s.cluster.credentials kind) (account.credentials kind)
  login : (∀ was ∈ before, was.enabled = true) ∨ account.enabled = true →
    HasLogin (account.credentials .appPassword)
  within : ∀ kind limit, account.limit kind = some limit → ((account.credentials kind).length : ℤ) ≤ limit

/-- No credential of the kind is taken out: the cluster's are all among the rows the save starts from, and
none has to make room for the login. -/
structure TakesNoneOut (s : State) (before : MailAccount) (edit : Edit) (kind : Kind) : Prop where
  listed : ∀ id, (s.cluster.credentials kind id).isSome →
    id ∈ rowIds (startRows s.cluster s.createdAt (some before) edit kind).rows
  room : kind.alwaysPresent = true →
    (∃ row ∈ (startRows s.cluster s.createdAt (some before) edit kind).rows, row.description = siteLogin) ∨
      isOver (edit.after.limit kind)
        ((startRows s.cluster s.createdAt (some before) edit kind).rows ++ [loginRow]) = false

/-- The first row is the login's. -/
def StartsWithLogin (rows : List CredentialRow) : Prop := (rows.map (·.description)).head? = some siteLogin

/-- **What keeps the credentials as they are to be**: an account adopted while it is disabled has none; a
save that disables an account takes none out; a save of a disabled account sets no limit below its rows,
and has the login first where it enables the account. -/
def KeepsCredentials (s : State) : Action → Prop
  | .adopt _ cluster _ _ => isShut cluster = true → ∀ kind id, cluster.credentials kind id = none
  | .save loads after password _ => ∀ before ∈ s.account,
      if before.enabled then
        after.enabled = true ∨ ∀ kind, TakesNoneOut s before (s.edited before loads after password) kind
      else
        (∀ kind limit, after.limit kind = some limit → ((before.credentials kind).length : ℤ) ≤ limit) ∧
          (after.enabled = true → StartsWithLogin (after.credentials .appPassword))
  | _ => True

/-- An insert, a save or a rotation. -/
def Action.isSave : Action → Bool
  | .adopt _ _ _ _ => false
  | .refresh => false
  | _ => true

/-- **The account is in shape**: its session is shut as it is disabled, it is on the cluster, and its rows
mirror the cluster, if there are any. Of a disabled account they all do, and one at most is the login. -/
structure IsFine (s : State) (account : MailAccount) : Prop where
  shut : ShutAs s.cluster account
  placed : account.stalwartId.isSome
  mirrored : ∀ kind, IsMirroredOrEmpty (s.cluster.credentials kind) (account.credentials kind)
  disabled : account.enabled = false → (∀ kind, IsMirrored (s.cluster.credentials kind) (account.credentials kind)) ∧
    ((account.credentials .appPassword).map (·.description)).count siteLogin ≤ 1

section Committed

variable {s there : State} {before : MailAccount} {edit : Edit} {calls : Calls Call Unit} {now : String}
  {kind : Kind}

theorem push_eq_some (pushed : s.push before edit calls now = some there) :
    calls.ends = some () ∧ there = s.commit before edit calls.sent now := by
  unfold State.push at pushed
  split at pushed
  · exact nomatch pushed
  · obtain ⟨done, ends, rfl⟩ := Option.map_eq_some_iff.mp pushed
    exact ⟨ends, rfl⟩

theorem map_description_saved (next : ℕ) (kind : Kind) :
    ((edit.saved next).credentials kind).map (·.description) =
      (edit.after.credentials kind).map (·.description) := by
  cases kind with
  | appPassword => exact map_description_assign
  | apiKey => exact map_description_assign

theorem hasLogin_saved (next : ℕ) (login : HasLogin (edit.after.credentials kind)) :
    HasLogin ((edit.saved next).credentials kind) := by
  obtain ⟨rest, named, once⟩ := login
  exact ⟨rest, (map_description_saved next kind).trans named, once⟩

theorem length_saved (next : ℕ) :
    ((edit.saved next).credentials kind).length = (edit.after.credentials kind).length := by
  have lengths : (((edit.saved next).credentials kind).map (·.description)).length =
      ((edit.after.credentials kind).map (·.description)).length :=
    congrArg List.length (map_description_saved next kind)
  rwa [List.length_map, List.length_map] at lengths

theorem HasLogin.count {rows : List CredentialRow} (login : HasLogin rows) :
    (rows.map (·.description)).count siteLogin = 1 := by
  obtain ⟨rest, named, once⟩ := login
  rw [named, List.count_cons_self, List.count_eq_zero.mpr once]

theorem hasLogin_of_first {rows : List CredentialRow} (first : StartsWithLogin rows)
    (once : (rows.map (·.description)).count siteLogin ≤ 1) : HasLogin rows := by
  unfold StartsWithLogin at first
  obtain ⟨rest, named⟩ := List.head?_eq_some_iff.mp first
  refine ⟨rest, named, fun again => ?_⟩
  rw [named, List.count_cons_self] at once
  have more := List.count_pos_iff.mpr again
  omega

theorem fine_and_hold {was : Option MailAccount} {sent : List Call} (ready : IsReady s.cluster before edit)
    (shut : ShutAs s.cluster before) (sends : Sends s.cluster before edit sent)
    (kept : edit.after.enabled = false → ∀ kind, gone before edit kind = [])
    (placed : edit.after.stalwartId.isSome)
    (once : ((edit.after.credentials .appPassword).map (·.description)).count siteLogin ≤ 1)
    (login : (∀ account ∈ was, account.enabled = true) ∨ edit.after.enabled = true →
      HasLogin (edit.after.credentials .appPassword))
    (within : ∀ kind limit, edit.after.limit kind = some limit →
      ((edit.after.credentials kind).length : ℤ) ≤ limit) :
    IsFine (s.commit before edit sent now) (edit.saved s.cluster.next) ∧
      CredentialsHold was (s.commit before edit sent now) (edit.saved s.cluster.next) := by
  obtain ⟨switched, mirrored⟩ : ShutAs (s.commit before edit sent now).cluster edit.after ∧
      ∀ kind, IsMirrored ((s.commit before edit sent now).cluster.credentials kind)
        ((edit.saved s.cluster.next).credentials kind) := isMirrored_commit ready shut sends kept
  constructor
  · refine ⟨switched, placed, fun kind => Or.inr (mirrored kind), fun _ => ⟨mirrored, ?_⟩⟩
    rw [map_description_saved]
    exact once
  · refine ⟨mirrored, fun open_ => hasLogin_saved _ (login open_), fun kind limit set => ?_⟩
    rw [length_saved]
    exact within kind limit set

theorem isDrawnFrom_placed {credentials : ℕ → Option Credential} {rows placed : List CredentialRow}
    (drawn : IsDrawnFrom credentials rows) (sub : (rowIds placed).Subperm (rowIds rows)) :
    IsDrawnFrom credentials placed := by
  obtain ⟨ids, perm, sublist⟩ := sub
  exact ⟨perm.nodup_iff.mp (drawn.distinct.sublist sublist),
    fun id member => drawn.there id (sublist.subset (perm.mem_iff.mpr member))⟩

theorem gone_eq_nil {credentials : ℕ → Option Credential}
    (mirrored : IsMirrored credentials (knownRows before edit kind))
    (listed : ∀ id, (credentials id).isSome → id ∈ rowIds (edit.after.credentials kind)) :
    gone before edit kind = [] := by
  refine List.eq_nil_iff_forall_not_mem.mpr fun id out => ?_
  obtain ⟨inside, absent⟩ := (mem_gone mirrored).mp out
  exact absent (listed id inside)

end Committed

/-! ## One step -/

section Steps

variable {ids : Ids} {s there : State} {before : MailAccount} {edit : Edit} {minted : Kind → Bool}
  {loads : Kind → Bool} {now : String}

theorem save_eq_some (saved : s.save ids before minted edit now = some there)
    (placed : edit.after.stalwartId.isSome) (sending : edit.skipPush = false) :
    ∃ checked sent, IsChecked s.cluster s.createdAt (some before) minted edit checked ∧
      Sends s.cluster before checked sent ∧ there = s.commit before checked sent now := by
  obtain ⟨checked, passed, pushed⟩ := Option.bind_eq_some_iff.mp saved
  have check := validate_eq_some passed
  obtain ⟨ends, done⟩ := push_eq_some pushed
  have pushes : checked.pushes = true := by
    rw [check.rest]
    show (edit.after.stalwartId.isSome && !edit.skipPush) = true
    rw [placed, sending]
    rfl
  exact ⟨checked, _, check, sends_onUpdate pushes ends, done⟩

theorem open_save (fine : IsFine s before) (enabled : before.enabled = true)
    (same : edit.after.stalwartId = before.stalwartId) (sending : edit.skipPush = false)
    (loaded : edit.loaded = (s.opened before loads).loaded)
    (drawn : ∀ kind, isDrawn (edit.after.credentials kind) ((s.opened before loads).after.credentials kind) = true)
    (kept : edit.after.enabled = true ∨ ∀ kind, TakesNoneOut s before edit kind)
    (saved : s.save ids before minted edit now = some there) :
    ∃ account, there.account = some account ∧ IsFine there account ∧
      CredentialsHold (some before) there account := by
  have placed : edit.after.stalwartId.isSome := by
    rw [same]
    exact fine.placed
  obtain ⟨checked, sent, check, sends, rfl⟩ := save_eq_some saved placed sending
  have opened : ∀ account ∈ some before, account.enabled = true := by
    intro account member
    obtain rfl := Option.mem_some_iff.mp member
    exact enabled
  have rows := fun kind => validateKind_open opened (check.rows kind)
  have start := fun kind => start_drawn fine.placed (fine.mirrored kind) loaded (drawn kind)
  have mirrored := fun kind => (start kind).2 checked (rows kind).2.2
  have ready : IsReady s.cluster before checked :=
    ⟨mirrored, fun kind => isDrawnFrom_placed (start kind).1 (subperm_rowIds_placed (rows kind).1),
      check.described⟩
  have login : HasLogin (checked.after.credentials .appPassword) := hasLogin_placed (rows .appPassword).1 rfl
  have leaves : checked.after.enabled = false → ∀ kind, gone before checked kind = [] := by
    intro disabled kind
    rw [check.enabled] at disabled
    have none := (kept.resolve_left (by rw [disabled]; exact Bool.false_ne_true)) kind
    exact gone_eq_nil (mirrored kind) fun id inside =>
      mem_rowIds_placed (rows kind).1 none.room (none.listed id inside)
  refine ⟨_, rfl, fine_and_hold ready fine.shut sends leaves ?_ login.count.le (fun _ => login) ?_⟩
  · rw [check.stalwartId]
    exact placed
  · intro kind limit set
    rw [check.limit] at set
    exact length_le_limit check.quotas (rows kind).2.1 set

theorem closed_save (fine : IsFine s before) (disabled : before.enabled = false)
    (same : edit.after.stalwartId = before.stalwartId) (sending : edit.skipPush = false)
    (loaded : ∀ kind, edit.loaded kind = [])
    (distinct : ∀ kind, (rowIds (edit.after.credentials kind)).Nodup)
    (within : ∀ kind limit, edit.after.limit kind = some limit → ((before.credentials kind).length : ℤ) ≤ limit)
    (first : edit.after.enabled = true → StartsWithLogin (edit.after.credentials .appPassword))
    (saved : s.save ids before minted edit now = some there) :
    ∃ account, there.account = some account ∧ IsFine there account ∧
      CredentialsHold (some before) there account := by
  have placed : edit.after.stalwartId.isSome := by
    rw [same]
    exact fine.placed
  obtain ⟨checked, sent, check, sends, rfl⟩ := save_eq_some saved placed sending
  obtain ⟨mirrored, once⟩ := fine.disabled disabled
  have rows := fun kind => validateKind_closed disabled (check.rows kind)
  have credentials : ∀ kind, checked.after.credentials kind = edit.after.credentials kind := fun kind =>
    congrArg Loaded.rows (rows kind).2
  have fetched : ∀ kind, checked.loaded kind = [] := fun kind =>
    (congrArg Loaded.fetched (rows kind).2).trans (loaded kind)
  have known : ∀ kind, knownRows before checked kind = before.credentials kind := fun kind =>
    if_pos (fetched kind)
  have still := fun kind => (mirrored kind).perm_of_mem_iff (rows kind).1 (distinct kind)
  have ready : IsReady s.cluster before checked := by
    refine ⟨fun kind => ?_, fun kind => ?_, check.described⟩
    · rw [known]
      exact mirrored kind
    · rw [credentials]
      exact ⟨distinct kind, fun id member => (still kind).1.mem_rowIds_iff.mp member⟩
  have leaves : checked.after.enabled = false → ∀ kind, gone before checked kind = [] := by
    intro _ kind
    refine gone_eq_nil (ready.mirrored kind) fun id inside => ?_
    rw [credentials]
    exact (still kind).1.mem_rowIds_iff.mpr inside
  have count : ((edit.after.credentials .appPassword).map (·.description)).count siteLogin ≤ 1 := by
    rw [((still .appPassword).2.map (·.description)).count_eq]
    exact once
  refine ⟨_, rfl, fine_and_hold ready fine.shut sends leaves ?_ ?_ ?_ ?_⟩
  · rw [check.stalwartId]
    exact placed
  · rw [credentials]
    exact count
  · rintro (opened | opened)
    · exact nomatch (opened before rfl).symm.trans disabled
    · rw [check.enabled] at opened
      rw [credentials]
      exact hasLogin_of_first (first opened) count
  · intro kind limit set
    rw [check.limit] at set
    rw [credentials, (still kind).2.length_eq]
    exact within kind limit set

theorem inserting_keeps (document : MailAccount) (lifted : List String) (id : String) :
    (inserting document lifted id).after.credentials = document.credentials ∧
      (inserting document lifted id).after.stalwartId = some id := by
  unfold inserting applyDefaultLimits
  refine List.foldlRecOn (motive := fun account : MailAccount =>
    account.credentials = document.credentials ∧ account.stalwartId = some id) kinds _ ⟨rfl, rfl⟩ ?_
  intro account same kind _
  split
  · exact same
  · exact same

theorem isMirrored_nil : IsMirrored (fun _ => none) [] := by
  refine ⟨List.nodup_nil, fun row => iff_of_false List.not_mem_nil ?_⟩
  rintro ⟨id, there⟩
  exact nomatch there

/-- **The insert.** -/
theorem inserts {document : MailAccount} {lifted : List String} {account : Account} {id : String}
    (fresh : ∀ kind, ∀ row ∈ document.credentials kind, row.credentialId = none)
    (inserted : s.insert document lifted account id now = some there) :
    ∃ account, there.account = some account ∧ IsFine there account ∧ CredentialsHold none there account := by
  obtain ⟨checked, passed, pushed⟩ := Option.bind_eq_some_iff.mp inserted
  have check := validate_eq_some passed
  obtain ⟨ends, rfl⟩ := push_eq_some pushed
  have opened : ∀ account ∈ (none : Option MailAccount), account.enabled = true :=
    fun _ member => nomatch member
  have rows := fun kind => validateKind_open opened (check.rows kind)
  have document_keeps := inserting_keeps document lifted id
  have unidentified : ∀ kind, rowIds (checked.after.credentials kind) = [] := by
    intro kind
    refine List.eq_nil_iff_forall_not_mem.mpr fun found member => ?_
    have member := (subperm_rowIds_placed (rows kind).1).subset member
    obtain ⟨row, inside, identified⟩ := mem_rowIds.mp member
    have inside : row ∈ (inserting document lifted id).after.credentials kind := inside
    rw [document_keeps.1] at inside
    exact nomatch (fresh kind row inside).symm.trans identified
  have fetched : ∀ kind, checked.loaded kind = [] := fun kind => (rows kind).2.2
  have known : ∀ kind, IsMirrored (fun _ => none) (knownRows checked.after.blank checked kind) := by
    intro kind
    unfold knownRows
    rw [if_pos (fetched kind)]
    exact isMirrored_nil
  have login : HasLogin (checked.after.credentials .appPassword) := hasLogin_placed (rows .appPassword).1 rfl
  refine ⟨_, rfl, fine_and_hold ⟨known, fun kind => ?_, check.described⟩ rfl (sends_afterInsert ends)
    (fun _ kind => gone_eq_nil (known kind) fun _ there => nomatch there) ?_ login.count.le
    (fun _ => login) ?_⟩
  · refine ⟨?_, fun id member => ?_⟩
    · rw [unidentified]
      exact List.nodup_nil
    · rw [unidentified] at member
      exact nomatch member
  · rw [check.stalwartId, document_keeps.2]
    rfl
  · intro kind limit set
    rw [check.limit] at set
    exact length_le_limit check.quotas (rows kind).2.1 set

theorem nodup_opened (fine : IsFine s before) (kind : Kind) :
    (rowIds ((s.opened before loads).after.credentials kind)).Nodup := by
  rw [credentials_opened]
  split
  · exact (isDrawnFrom_load _).distinct
  · rcases fine.mirrored kind with none | mirrored
    · rw [none]
      exact List.nodup_nil
    · exact nodup_rowIds mirrored.distinct

theorem isDrawn_of_sublist {rows document : List CredentialRow} (distinct : (rowIds document).Nodup)
    (sub : (rowIds rows).Sublist (rowIds document)) : isDrawn rows document = true := by
  unfold isDrawn
  rw [Bool.and_eq_true, decide_eq_true_iff, List.all_eq_true]
  refine ⟨distinct.sublist sub, fun row member => ?_⟩
  cases identified : row.credentialId with
  | none => rfl
  | some id => exact decide_eq_true (sub.subset (mem_rowIds.mpr ⟨row, member, identified⟩))

theorem rotates {kind : Kind} (fine : IsFine s before) (enabled : before.enabled = true)
    (saved : s.save ids before minted (s.rotated before kind) now = some there) :
    ∃ account, there.account = some account ∧ IsFine there account ∧
      CredentialsHold (some before) there account := by
  have loaded : (s.rotated before kind).loaded = (s.opened before fun other =>
      decide (other = kind) && decide (before.credentials kind = [])).loaded := rfl
  refine open_save fine enabled rfl rfl loaded ?_ (Or.inl enabled) saved
  intro other
  refine isDrawn_of_sublist (nodup_opened fine other) ?_
  unfold State.rotated
  by_cases same : other = kind
  · subst same
    simp only [Function.update_self]
    split
    · exact rowIds_sublist List.filter_sublist
    · rw [rowIds_append_loginRow]
      exact rowIds_sublist List.filter_sublist
  · simp only [Function.update_of_ne same]
    exact List.Sublist.refl _

/-- **A save of the form or of the tenant API.** -/
theorem requests {after : MailAccount} {password : Option String} (fine : IsFine s before)
    (account : s.account = some before)
    (kept : if before.enabled then
        after.enabled = true ∨ ∀ kind, TakesNoneOut s before (s.edited before loads after password) kind
      else
        (∀ kind limit, after.limit kind = some limit → ((before.credentials kind).length : ℤ) ≤ limit) ∧
          (after.enabled = true → StartsWithLogin (after.credentials .appPassword)))
    (taken : step ids s (.save loads after password now) = some there) :
    ∃ account, there.account = some account ∧ IsFine there account ∧
      CredentialsHold (some before) there account := by
  simp only [step, account, Option.bind_some] at taken
  split at taken
  · next loading =>
    split at taken
    · next request =>
      have drawn : ∀ kind, isDrawn (after.credentials kind)
          ((s.opened before loads).after.credentials kind) = true := fun kind =>
        List.all_eq_true.mp request.2 kind (mem_kinds kind)
      by_cases enabled : before.enabled = true
      · rw [if_pos enabled] at kept
        have loaded : (s.edited before loads after password).loaded = (s.opened before loads).loaded := rfl
        exact open_save fine enabled request.1 rfl loaded drawn kept taken
      · rw [if_neg enabled] at kept
        have closed : before.enabled = false := Bool.eq_false_iff.mpr enabled
        have unloaded := List.all_eq_true.mp (loading.resolve_left enabled)
        refine closed_save fine closed request.1 rfl (fun kind => ?_) (fun kind => ?_) kept.1 kept.2 taken
        · have none : loads kind = false := by
            have unloaded := unloaded kind (mem_kinds kind)
            rwa [Bool.not_eq_true'] at unloaded
          show Loaded.fetched (if loads kind then _ else _) = []
          rw [none]
          rfl
        · exact (isDrawnFrom_request (fine.mirrored kind) (drawn kind)).distinct
    · exact nomatch taken
  · exact nomatch taken

theorem isFine_refresh (fine : IsFine s before) (there : s.account = some before) :
    ∀ account ∈ (s.refresh before).account, IsFine (s.refresh before) account := by
  intro account member
  unfold State.refresh at member ⊢
  split at member
  · next opened =>
    rw [if_pos opened]
    obtain rfl := Option.mem_some_iff.mp member
    refine ⟨fine.shut, fine.placed, fun kind => Or.inr ?_, fun disabled => ?_⟩
    · have saved : (before.credentials kind).filter (·.credentialId.isNone) = [] := by
        rcases fine.mirrored kind with none | mirrored
        · rw [none]
          rfl
        · refine List.filter_eq_nil_iff.mpr fun row inside unidentified => ?_
          have identified := mirrored.identified inside
          rw [Option.isNone_iff_eq_none.mp unidentified] at identified
          exact nomatch identified
      show IsMirrored _ (liveRows s.cluster s.createdAt kind ++ _)
      rw [saved, List.append_nil]
      exact isMirrored_liveRows
    · exact nomatch opened.2.symm.trans disabled
  · next closed =>
    rw [if_neg closed]
    rw [there] at member
    obtain rfl := Option.mem_some_iff.mp member
    exact fine

theorem isFine_adopt {document : MailAccount} {cluster : Cluster} {createdAt : ℕ → String} {id : String}
    (kept : isShut cluster = true → ∀ kind id, cluster.credentials kind id = none) :
    ∀ account ∈ (State.adopt document cluster createdAt id).account,
      IsFine (State.adopt document cluster createdAt id) account := by
  intro account member
  obtain rfl := Option.mem_some_iff.mp member
  refine ⟨(Bool.not_not _).symm, rfl, fun kind => Or.inl rfl, fun disabled => ⟨fun kind => ?_, Nat.zero_le 1⟩⟩
  have disabled : (!isShut cluster) = false := disabled
  have shut : isShut cluster = true := by rwa [Bool.not_eq_false'] at disabled
  have none : cluster.credentials kind = fun _ => none := funext fun id => kept shut kind id
  show IsMirrored (cluster.credentials kind) []
  rw [none]
  exact isMirrored_nil

/-- **One step**: it keeps the account in shape, and the credentials hold after a save. -/
theorem isFine_step {action : Action} (fine : ∀ account ∈ s.account, IsFine s account)
    (kept : KeepsCredentials s action) (taken : step ids s action = some there) :
    (∀ account ∈ there.account, IsFine there account) ∧
      (action.isSave = true → ∃ account, there.account = some account ∧ CredentialsHold s.account there account) := by
  -- what an insert, a save and a rotation give
  have saves : (∃ account, there.account = some account ∧ IsFine there account ∧
      CredentialsHold s.account there account) → (∀ account ∈ there.account, IsFine there account) ∧
      (action.isSave = true → ∃ account, there.account = some account ∧
        CredentialsHold s.account there account) := by
    rintro ⟨account, saved, fine, holds⟩
    refine ⟨fun other member => ?_, fun _ => ⟨account, saved, holds⟩⟩
    rw [saved] at member
    obtain rfl := Option.mem_some_iff.mp member
    exact fine
  cases action with
  | insert document lifted account id now =>
    simp only [step] at taken
    split at taken
    · next fresh =>
      have none : s.account = none := Option.isNone_iff_eq_none.mp fresh.1
      rw [none] at saves ⊢
      refine saves (inserts (fun kind row member => ?_) taken)
      have all := List.all_eq_true.mp (List.all_eq_true.mp fresh.2 kind (mem_kinds kind)) row member
      exact Option.isNone_iff_eq_none.mp all
    · exact nomatch taken
  | adopt document cluster createdAt id =>
    simp only [step] at taken
    split at taken
    · obtain rfl := Option.some.inj taken
      exact ⟨isFine_adopt kept, nofun⟩
    · exact nomatch taken
  | refresh =>
    obtain ⟨before, account, rfl⟩ := Option.map_eq_some_iff.mp taken
    exact ⟨isFine_refresh (fine before account) account, nofun⟩
  | save loads after password now =>
    obtain ⟨before, account, -⟩ := Option.bind_eq_some_iff.mp taken
    have result := requests (fine before account) account (kept before account) taken
    rw [← account] at result
    exact saves result
  | rotate kind now =>
    obtain ⟨before, account, taken⟩ := Option.bind_eq_some_iff.mp taken
    have fine := fine before account
    rw [account] at saves ⊢
    split at taken
    · next enabled => exact saves (rotates fine enabled taken)
    · exact nomatch taken

end Steps

/-! ## Every run -/

/-- No domain or group is asked for. -/
def noIds : Ids := ⟨fun _ => none, fun _ => none⟩

/-- Alice's account is inserted with an app password for her phone. -/
def aliceInserted : Action :=
  .insert { alice with credentials := perKind [⟨none, "Phone", none, []⟩] [] } [] aliceSynced.account "b"
    "2026-01-05 09:00:00"

/-- What a save has of her account, with these rows. -/
def aliceWith (appPasswords apiKeys : List CredentialRow) : MailAccount :=
  { alice with
    quotas := [("maxAppPasswords", 10), ("maxApiKeys", 10)]
    credentials := perKind appPasswords apiKeys }

/-- The phone's app password makes way for the laptop's, and an API key is added. -/
def phoneReplaced : Action :=
  .save (fun _ => false)
    (aliceWith [⟨some 0, siteLogin, none, []⟩, ⟨none, "Laptop", none, ["192.0.2.7"]⟩] [⟨none, "CI", none, []⟩])
    none "2026-02-05 09:00:00"

/-- The phone's app password is taken out, and the account disabled, in one save. -/
def phoneDropped : Action :=
  .save (fun _ => false) { aliceWith [⟨some 0, siteLogin, none, []⟩] [] with enabled := false } none
    "2026-02-05 09:00:00"

end SuiteCloud.Mail.Accounts
