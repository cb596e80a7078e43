/-
**The Suite Cloud token of a server: `get_server` beside `rotate_token`.**

`suite_cloud/mail/cluster/server_token.py`, `rotate_token` of `telemetry/install.py`, and the saves
and deletes of Stalwart Nodes and Egress Gateways that clear the cached server after their commit.
Any number of `get_server` calls run at once, each a sequence of single requests to the cache and the
database: `SuiteCloud.Library.CacheAside` gives the steps, `findServer` what a miss loads.

### What is proved

* `never_again` — a digest that a server once had and gave up is no server's again, as long as each
  secret made is a new one.
* `rotated_token_refused` — **in every timely run a rotated token stops working**: no call that starts
  after the rotation's clear accepts a token made of the old secret.
* `rotated_token_accepted` — **without that it may go on working**: a call that read the old secret
  before the commit writes it back after the clear, and the next call accepts the old token.

SHA-256 is a parameter, and `frappe.generate_hash` is the choice of the secret in an action:
`Generated` says that its secrets are new ones, also by their digests, and its keys have no dot.
-/

import SuiteCloud.Library.CacheAside
import SuiteCloud.Library.Keyed
import SuiteCloud.Library.Text

namespace SuiteCloud.Mail.Cluster.ServerToken

open SuiteCloud.Library

/-! ### Servers -/

/-- `SERVER_DOCTYPES`. -/
inductive Doctype
  | stalwartNode
  | egressGateway
  deriving DecidableEq

/-- A row of a server with its secret; `none` where no secret is stored. -/
structure Server where
  doctype : Doctype
  name : String
  cluster : String
  hostname : String
  ipv4Address : String
  suiteCloudKey : String
  suiteCloudSecret : Option String
  deriving DecidableEq

/-- The primary key. -/
def Server.id (server : Server) : Doctype × String := (server.doctype, server.name)

/-- The committed rows of both doctypes. -/
abbrev Servers := Keyed (Doctype × String) Server Server.id

/-- What `find_server` returns and the cache holds. -/
structure Record where
  name : String
  cluster : String
  hostname : String
  ipv4Address : String
  doctype : Doctype
  secretSha256 : String
  deriving DecidableEq

variable (sha256 : String → String)

/-- The record of a row found; `none` (`{}`) where it has no secret. -/
def Server.record (server : Server) : Option Record :=
  match server.suiteCloudSecret with
  | none => none
  | some secret =>
      if secret = "" then none
      else some ⟨server.name, server.cluster, server.hostname, server.ipv4Address, server.doctype,
        sha256 secret⟩

/-- `frappe.db.get_value(doctype, {"suite_cloud_key": key}, …)`. -/
def rowOf (servers : Servers) (doctype : Doctype) (key : String) : Option Server :=
  servers.rows.find? fun server => server.doctype = doctype ∧ server.suiteCloudKey = key

/-- The loop of `find_server`, with the reads it makes: each doctype's row, and the secret of the row
found. -/
def findServerIn (servers : Servers) (key : String) : List Doctype → Option Record × ℕ
  | [] => (none, 0)
  | doctype :: rest =>
      match rowOf servers doctype key with
      | some server => (server.record sha256, 2)
      | none =>
          let found := findServerIn servers key rest
          (found.1, found.2 + 1)

/-- **`find_server`**, with the reads it makes after the first. -/
def findServer (servers : Servers) (key : String) : Option Record × ℕ :=
  let found := findServerIn sha256 servers key [.stalwartNode, .egressGateway]
  (found.1, found.2 - 1)

/-- `get_token`. -/
def getToken (key secret : String) : String := key ++ "." ++ secret

/-- `token.partition(SEPARATOR)`, where key and secret are there. -/
def parseToken (token : String) : Option (String × String) :=
  match partition '.' token with
  | none => none
  | some (key, secret) => if key = "" ∨ secret = "" then none else some (key, secret)

/-- What `get_server` returns once it has the server record. -/
def checkSecret (server : Option Record) (secret : String) : Option Record :=
  match server with
  | none => none
  | some record => if record.secretSha256 = sha256 secret then some record else none

/-! ### Steps -/

/-- A call `get_server(token)`. -/
structure GetServer where
  id : ℕ
  token : String
  deriving DecidableEq

/-- A transaction that changes servers. -/
inductive Change
  /-- An insert; `fill_token` gave it its key and secret. -/
  | create (server : Server)
  /-- A save of other fields. -/
  | save (server : Server)
  /-- `rotate_token`, with the secret made. -/
  | rotate (server : Doctype × String) (secret : String)
  | delete (server : Doctype × String)

/-- A row saved: key and secret are set once, on insert. -/
def Server.keepToken (server before : Server) : Server :=
  { server with
    suiteCloudKey := before.suiteCloudKey
    suiteCloudSecret := before.suiteCloudSecret }

/-- The rows after a change, and the key of the server changed. The key is unique in its doctype. -/
def applyChange (servers : Servers) : Change → Option (Servers × String)
  | .create server =>
      if (rowOf servers server.doctype server.suiteCloudKey).isSome then none
      else (servers.insert server).map (·, server.suiteCloudKey)
  | .save server =>
      (servers.get server.id).map fun before =>
        (servers.put (server.keepToken before), before.suiteCloudKey)
  | .rotate id secret =>
      (servers.get id).map fun before =>
        (servers.put { before with suiteCloudSecret := some secret }, before.suiteCloudKey)
  | .delete id => (servers.get id).map fun before => (servers.erase id, before.suiteCloudKey)

/-- `clear_server_after_commit`: the cache entries a change owes the clear of. -/
def clearServerAfterCommit (key : String) : List String := if key = "" then [] else [key]

abbrev State := CacheAside.State GetServer String (Option Record) Servers

/-- No server yet. -/
def State.initial : State := CacheAside.State.initial ∅

/-- The rows last committed. -/
def State.servers (s : State) : Servers := s.tables s.commits

inductive Action
  /-- The worker of a call reads something else in its transaction. -/
  | glance (call : GetServer)
  | start (call : GetServer)
  | advance (call : GetServer)
  | commit (change : Change)
  | clear (key : String) (commit : ℕ)
  | expire (key : String)

/-- An action as one of the cache. A call with a malformed token asks nothing. -/
def request (s : State) : Action → Option (CacheAside.Action GetServer String Servers)
  | .glance call => some (.glance call)
  | .start call => (parseToken call.token).map fun parts => .start call parts.1
  | .advance call => some (.advance call)
  | .commit change =>
      (applyChange s.servers change).map fun done =>
        .commit done.1 (clearServerAfterCommit done.2)
  | .clear key commit => some (.clear key commit)
  | .expire key => some (.expire key)

/-- **One step.** -/
def step (s : State) (action : Action) : Option State :=
  (request s action).bind (CacheAside.step (findServer sha256) s)

/-- What a call returned: `none` while it runs. -/
def returned (s : State) (call : GetServer) : Option (Option Record) :=
  match parseToken call.token with
  | none => some none
  | some (_, secret) =>
      match s.calls call with
      | some ⟨_, _, .answered server⟩ => some (checkSecret sha256 server secret)
      | _ => none

/-! ### What a run is promised -/

/-- No server had a secret of this digest in any commit so far. -/
def NewSecret (s : State) (secret : String) : Prop :=
  ∀ commit ≤ s.commits, ∀ server ∈ (s.tables commit).rows, ∀ old ∈ server.suiteCloudSecret,
    sha256 secret ≠ sha256 old

/-- **`frappe.generate_hash`**: a secret made is a new one, and a key is made of hex digits. -/
def Generated (s : State) : Action → Prop
  | .commit (.create server) => '.' ∉ server.suiteCloudKey.toList ∧
      ∀ secret ∈ server.suiteCloudSecret, NewSecret sha256 s secret
  | .commit (.rotate _ secret) => NewSecret sha256 s secret
  | _ => True

/-- **No late load and no late store.** -/
def Timely (s : State) (action : Action) : Prop :=
  ∀ asked ∈ request s action, CacheAside.Timely (findServer sha256) s asked

/-- The runs the statement below is about: timely, over generated keys and secrets. -/
def Allowed (s : State) (action : Action) : Prop := Timely sha256 s action ∧ Generated sha256 s action

instance (s : State) (secret : String) : Decidable (NewSecret sha256 s secret) :=
  inferInstanceAs (Decidable (∀ commit ≤ s.commits, ∀ server ∈ (s.tables commit).rows,
    ∀ old ∈ server.suiteCloudSecret, sha256 secret ≠ sha256 old))

instance (s : State) : DecidablePred (Generated sha256 s)
  | .commit (.create server) =>
      inferInstanceAs (Decidable ('.' ∉ server.suiteCloudKey.toList ∧
        ∀ secret ∈ server.suiteCloudSecret, NewSecret sha256 s secret))
  | .commit (.rotate _ secret) => inferInstanceAs (Decidable (NewSecret sha256 s secret))
  | .commit (.save _) => isTrue trivial
  | .commit (.delete _) => isTrue trivial
  | .glance _ => isTrue trivial
  | .start _ => isTrue trivial
  | .advance _ => isTrue trivial
  | .clear _ _ => isTrue trivial
  | .expire _ => isTrue trivial

instance (s : State) (action : Action) : Decidable (Allowed sha256 s action) :=
  inferInstanceAs (Decidable ((∀ asked ∈ request s action,
    CacheAside.Timely (findServer sha256) s asked) ∧ Generated sha256 s action))

/-! ### A value given up never comes back -/

section Issued

variable {Holder Value : Type} {held : ℕ → Holder → Option Value} {last : ℕ}

/-- Between two commits one holder at most changes, and what it has then it had before or nobody ever
had. -/
def Issued (held : ℕ → Holder → Option Value) (commit : ℕ) : Prop :=
  ∃ owner, (∀ other, other ≠ owner → held (commit + 1) other = held commit other) ∧
    ∀ value, held (commit + 1) owner = some value → held commit owner = some value ∨
      ∀ earlier ≤ commit, ∀ other, held earlier other ≠ some value

theorem Issued.kept_or_new {commit : ℕ} (issued : Issued held commit) {holder : Holder}
    {value : Value} (now : held (commit + 1) holder = some value) :
    held commit holder = some value ∨ ∀ earlier ≤ commit, ∀ other, held earlier other ≠ some value := by
  obtain ⟨owner, others, mine⟩ := issued
  by_cases same : holder = owner
  · subst same
    exact mine value now
  · exact .inl ((others holder same).symm.trans now)

theorem one_holder (nobody : ∀ holder, held 0 holder = none)
    (issued : ∀ commit < last, Issued held commit) {commit : ℕ} (bounded : commit ≤ last)
    {first second : Holder} {value : Value} (one : held commit first = some value)
    (other : held commit second = some value) : first = second := by
  induction commit with
  | zero =>
    rw [nobody] at one
    cases one
  | succ commit ih =>
    obtain ⟨owner, others, mine⟩ := issued commit bounded
    have earlier := ih (Nat.le_of_succ_le bounded)
    by_cases firstOwns : first = owner
    · by_cases secondOwns : second = owner
      · rw [firstOwns, secondOwns]
      · subst firstOwns
        have before := (others second secondOwns).symm.trans other
        obtain kept | new := mine value one
        · exact earlier kept before
        · exact absurd before (new commit le_rfl second)
    · have before := (others first firstOwns).symm.trans one
      by_cases secondOwns : second = owner
      · subst secondOwns
        obtain kept | new := mine value other
        · exact earlier before kept
        · exact absurd before (new commit le_rfl first)
      · exact earlier before ((others second secondOwns).symm.trans other)

theorem never_again (nobody : ∀ holder, held 0 holder = none)
    (issued : ∀ commit < last, Issued held commit) {commit : ℕ} {holder : Holder} {value : Value}
    (had : held commit holder = some value) (gaveUp : held (commit + 1) holder ≠ some value)
    {later : ℕ} (after : commit + 1 ≤ later) (bounded : later ≤ last) (other : Holder) :
    held later other ≠ some value := by
  induction later, after using Nat.le_induction with
  | base =>
    intro now
    obtain kept | new := (issued commit bounded).kept_or_new now
    · have same := one_holder nobody issued (Nat.le_of_succ_le bounded) had kept
      subst same
      exact gaveUp now
    · exact new commit le_rfl holder had
  | succ later after ih =>
    intro now
    obtain kept | new := (issued later bounded).kept_or_new now
    · exact ih (Nat.le_of_succ_le bounded) kept
    · exact new commit (Nat.le_of_succ_le after) holder had

end Issued

/-! ### The secrets of a run -/

section Runs

variable {sha256} {s next : State} {action : Action}

/-- The digest of a server's secret. -/
def digestOf (sha256 : String → String) (servers : Servers) (id : Doctype × String) :
    Option String :=
  ((servers.get id).bind (·.suiteCloudSecret)).map sha256

/-- The secret a change stores, where it makes one. -/
def Change.made : Change → Option String
  | .create server => server.suiteCloudSecret
  | .rotate _ secret => some secret
  | _ => none

theorem digestOf_put (sha256 : String → String) {servers : Servers} {before : Server}
    (server : Server) (found : servers.get server.id = some before) (id : Doctype × String) :
    digestOf sha256 (servers.put server) id =
      if id = server.id then server.suiteCloudSecret.map sha256 else digestOf sha256 servers id := by
  rw [digestOf, Keyed.get_put found]
  split <;> rfl

theorem digestOf_applyChange (sha256 : String → String) {servers : Servers} {change : Change} {done : Servers × String}
    (applied : applyChange servers change = some done) :
    ∃ owner, (∀ other, other ≠ owner → digestOf sha256 done.1 other = digestOf sha256 servers other) ∧
      ∀ digest, digestOf sha256 done.1 owner = some digest →
        digestOf sha256 servers owner = some digest ∨
          ∃ secret ∈ change.made, sha256 secret = digest := by
  cases change with
  | create server =>
    simp only [applyChange] at applied
    split at applied
    · cases applied
    · obtain ⟨left, inserted, rfl⟩ := Option.map_eq_some_iff.mp applied
      refine ⟨server.id, fun other different => ?_, fun digest has => .inr ?_⟩
      · rw [digestOf, Keyed.get_insert inserted, if_neg different]
        rfl
      · rw [digestOf, Keyed.get_insert inserted, if_pos rfl] at has
        exact Option.map_eq_some_iff.mp has
  | save server =>
    obtain ⟨before, found, rfl⟩ := Option.map_eq_some_iff.mp applied
    refine ⟨server.id, fun other different => ?_, fun digest has => .inl ?_⟩
    · have put := digestOf_put sha256 (server.keepToken before) found other
      exact put.trans (if_neg different)
    · have put := digestOf_put sha256 (server.keepToken before) found server.id
      rw [digestOf, found, ← has]
      exact (put.trans (if_pos rfl)).symm
  | rotate id secret =>
    obtain ⟨before, found, rfl⟩ := Option.map_eq_some_iff.mp applied
    obtain rfl := (Keyed.get_eq_some.mp found).2
    refine ⟨before.id, fun other different => ?_, fun digest has => .inr ?_⟩
    · have put := digestOf_put sha256 { before with suiteCloudSecret := some secret } found other
      exact put.trans (if_neg different)
    · have put := digestOf_put sha256 { before with suiteCloudSecret := some secret } found before.id
      have new := put.trans (if_pos rfl)
      exact Option.map_eq_some_iff.mp (new.symm.trans has)
  | delete id =>
    obtain ⟨before, -, rfl⟩ := Option.map_eq_some_iff.mp applied
    refine ⟨id, fun other different => ?_, fun digest has => .inl ?_⟩
    · rw [digestOf, Keyed.get_erase, if_neg different]
      rfl
    · rw [digestOf, Keyed.get_erase, if_pos rfl] at has
      cases has

theorem key_applyChange {servers : Servers} {change : Change} {done : Servers × String}
    (applied : applyChange servers change = some done) {server : Server} (here : server ∈ done.1) :
    (∃ before ∈ servers, before.suiteCloudKey = server.suiteCloudKey) ∨ change = .create server := by
  cases change with
  | create new =>
    simp only [applyChange] at applied
    split at applied
    · cases applied
    · obtain ⟨left, inserted, rfl⟩ := Option.map_eq_some_iff.mp applied
      obtain rfl | before := ((Keyed.mem_insert inserted).2 server).mp here
      · exact .inr rfl
      · exact .inl ⟨server, before, rfl⟩
  | save saved =>
    obtain ⟨before, found, rfl⟩ := Option.map_eq_some_iff.mp applied
    obtain ⟨there, named⟩ := Keyed.get_eq_some.mp found
    obtain rfl | ⟨other, -⟩ := (Keyed.mem_put there (by exact named)).mp here
    · exact .inl ⟨before, there, rfl⟩
    · exact .inl ⟨server, other, rfl⟩
  | rotate id secret =>
    obtain ⟨before, found, rfl⟩ := Option.map_eq_some_iff.mp applied
    obtain ⟨there, -⟩ := Keyed.get_eq_some.mp found
    obtain rfl | ⟨other, -⟩ := (Keyed.mem_put there (by rfl)).mp here
    · exact .inl ⟨before, there, rfl⟩
    · exact .inl ⟨server, other, rfl⟩
  | delete id =>
    obtain ⟨before, -, rfl⟩ := Option.map_eq_some_iff.mp applied
    exact .inl ⟨server, (Keyed.mem_erase.mp here).1, rfl⟩

/-- The digests a state's commits left. -/
def digests (sha256 : String → String) (s : State) (commit : ℕ) : Doctype × String → Option String :=
  digestOf sha256 (s.tables commit)

/-- **The invariant of the runs of `Generated`**: secrets are issued once, keys have no dot, and a call
looks up the key of its token. -/
structure Sound (sha256 : String → String) (s : State) : Prop where
  nobody : ∀ id, digests sha256 s 0 id = none
  issued : ∀ commit < s.commits, Issued (digests sha256 s) commit
  dotless : ∀ commit ≤ s.commits, ∀ server ∈ s.tables commit, '.' ∉ server.suiteCloudKey.toList
  parsed : ∀ call lookup, s.calls call = some lookup →
    ∃ secret, parseToken call.token = some (lookup.key, secret)

theorem sound_initial : Sound sha256 State.initial where
  nobody _ := rfl
  issued _ bounded := absurd bounded (Nat.not_lt_zero _)
  dotless _ _ _ here := nomatch here
  parsed _ _ calls := nomatch calls

theorem step_eq_some (taken : step sha256 s action = some next) :
    ∃ asked, request s action = some asked ∧
      CacheAside.step (findServer sha256) s asked = some next :=
  Option.bind_eq_some_iff.mp taken

theorem digestOf_eq_some {servers : Servers} {id : Doctype × String} {digest : String} :
    digestOf sha256 servers id = some digest ↔
      ∃ server ∈ servers, server.id = id ∧ ∃ secret ∈ server.suiteCloudSecret, sha256 secret = digest := by
  constructor
  · intro has
    obtain ⟨secret, stored, same⟩ := Option.map_eq_some_iff.mp has
    obtain ⟨server, found, holds⟩ := Option.bind_eq_some_iff.mp stored
    obtain ⟨here, named⟩ := Keyed.get_eq_some.mp found
    exact ⟨server, here, named, secret, holds, same⟩
  · rintro ⟨server, here, named, secret, holds, rfl⟩
    rw [digestOf, Keyed.get_eq_some.mpr ⟨here, named⟩, Option.bind_some, holds]
    rfl

theorem newSecret_of_made {change : Change} (generated : Generated sha256 s (.commit change))
    {secret : String} (made : secret ∈ change.made) : NewSecret sha256 s secret := by
  cases change with
  | create server => exact generated.2 secret made
  | save server => cases made
  | rotate id new =>
    cases made
    exact generated
  | delete id => cases made

theorem Sound.parsed_step (sound : Sound sha256 s) (taken : step sha256 s action = some next)
    {call : GetServer} {lookup : CacheAside.Call String (Option Record)}
    (calls : next.calls call = some lookup) :
    ∃ secret, parseToken call.token = some (lookup.key, secret) := by
  obtain ⟨asked, requested, moved⟩ := step_eq_some taken
  obtain ⟨earlier, before, sameKey, -⟩ | ⟨rfl, -⟩ := (CacheAside.step_calls moved call).2 lookup calls
  · rw [← sameKey]
    exact sound.parsed call earlier before
  · cases action with
    | start other =>
      obtain ⟨⟨key, secret⟩, parsed, same⟩ := Option.map_eq_some_iff.mp requested
      cases same
      exact ⟨secret, parsed⟩
    | commit change =>
      obtain ⟨done, -, same⟩ := Option.map_eq_some_iff.mp requested
      cases same
    | glance other => cases requested
    | advance other => cases requested
    | clear key commit => cases requested
    | expire key => cases requested

theorem digests_commit {table : Servers}
    (tables : next.tables = Function.update s.tables (s.commits + 1) table) (commit : ℕ) :
    digests sha256 next commit =
      if commit = s.commits + 1 then digestOf sha256 table else digests sha256 s commit := by
  rw [digests, tables, Function.update_apply]
  split <;> rfl

theorem Sound.issued_commit (sound : Sound sha256 s) {change : Change} {done : Servers × String}
    (generated : Generated sha256 s (.commit change))
    (applied : applyChange s.servers change = some done) (commits : next.commits = s.commits + 1)
    (tables : next.tables = Function.update s.tables (s.commits + 1) done.1) :
    ∀ commit < next.commits, Issued (digests sha256 next) commit := by
  intro commit bounded
  have before : ∀ earlier ≤ commit, digests sha256 next earlier = digests sha256 s earlier := by
    intro earlier le
    rw [digests_commit tables, if_neg (by omega)]
  by_cases last : commit = s.commits
  · subst last
    obtain ⟨owner, others, mine⟩ := digestOf_applyChange sha256 applied
    refine ⟨owner, fun other different => ?_, fun digest has => ?_⟩
    · rw [digests_commit tables, if_pos rfl, before _ le_rfl]
      exact others other different
    · rw [digests_commit tables, if_pos rfl] at has
      rw [before _ le_rfl]
      refine (mine digest has).imp id ?_
      rintro ⟨secret, made, rfl⟩ earlier le other held
      rw [before earlier le, digests, digestOf_eq_some] at held
      obtain ⟨server, here, -, old, stored, same⟩ := held
      exact newSecret_of_made generated made earlier le server here old stored same.symm
  · obtain ⟨owner, others, mine⟩ := sound.issued commit (by omega)
    refine ⟨owner, fun other different => ?_, fun digest has => ?_⟩
    · rw [digests_commit tables, if_neg (by omega), before _ le_rfl]
      exact others other different
    · rw [digests_commit tables, if_neg (by omega)] at has
      rw [before _ le_rfl]
      refine (mine digest has).imp id fun new earlier le other => ?_
      rw [before earlier le]
      exact new earlier le other

theorem Sound.dotless_commit (sound : Sound sha256 s) {change : Change} {done : Servers × String}
    (generated : Generated sha256 s (.commit change))
    (applied : applyChange s.servers change = some done) (commits : next.commits = s.commits + 1)
    (tables : next.tables = Function.update s.tables (s.commits + 1) done.1) :
    ∀ commit ≤ next.commits, ∀ server ∈ next.tables commit, '.' ∉ server.suiteCloudKey.toList := by
  intro commit bounded server here
  rw [tables] at here
  by_cases last : commit = s.commits + 1
  · subst last
    rw [Function.update_self] at here
    obtain ⟨before, there, same⟩ | rfl := key_applyChange applied here
    · rw [← same]
      exact sound.dotless s.commits le_rfl before there
    · exact generated.1
  · rw [Function.update_of_ne last] at here
    exact sound.dotless commit (by omega) server here

/-- **A step keeps the invariant.** -/
theorem Sound.step (sound : Sound sha256 s) (generated : Generated sha256 s action)
    (taken : step sha256 s action = some next) : Sound sha256 next := by
  have parsed := fun call lookup (calls : next.calls call = some lookup) =>
    sound.parsed_step taken calls
  obtain ⟨asked, requested, moved⟩ := step_eq_some taken
  obtain ⟨commits, tables⟩ | ⟨table, owes, rfl, commits, tables⟩ := CacheAside.step_tables moved
  · have same : digests sha256 next = digests sha256 s := by
      unfold digests
      rw [tables]
    refine ⟨?_, ?_, ?_, parsed⟩
    · rw [same]
      exact sound.nobody
    · rw [same, commits]
      exact sound.issued
    · rw [tables, commits]
      exact sound.dotless
  · cases action with
    | commit change =>
      obtain ⟨done, applied, same⟩ := Option.map_eq_some_iff.mp requested
      cases same
      refine ⟨fun id => ?_, sound.issued_commit generated applied commits tables,
        sound.dotless_commit generated applied commits tables, parsed⟩
      rw [digests_commit tables, if_neg (by omega)]
      exact sound.nobody id
    | start call =>
      obtain ⟨_, -, same⟩ := Option.map_eq_some_iff.mp requested
      cases same
    | glance call => cases requested
    | advance call => cases requested
    | clear key commit => cases requested
    | expire key => cases requested

/-! ### A rotated token -/

theorem sound_of_reaches (reached : Reaches (step sha256) (Allowed sha256) State.initial s) :
    Sound sha256 s :=
  reached.invariant (Sound sha256) sound_initial fun sound allowed taken =>
    sound.step allowed.2 taken

theorem reaches_cache (reached : Reaches (step sha256) (Allowed sha256) s next) :
    Reaches (CacheAside.step (findServer sha256)) (CacheAside.Timely (findServer sha256)) s next := by
  refine reached.projects id fun {here there action} allowed taken => .inr ?_
  obtain ⟨asked, requested, moved⟩ := step_eq_some taken
  exact ⟨asked, allowed.1 asked requested, moved⟩

theorem digestOf_findServer {servers : Servers} {key : String} {record : Record}
    (found : (findServer sha256 servers key).1 = some record) :
    ∃ id, digestOf sha256 servers id = some record.secretSha256 := by
  have loop : ∀ doctypes, (findServerIn sha256 servers key doctypes).1 = some record →
      ∃ id, digestOf sha256 servers id = some record.secretSha256 := by
    intro doctypes
    induction doctypes with
    | nil => intro none; cases none
    | cons doctype rest ih =>
      intro here
      unfold findServerIn at here
      split at here
      · next server row =>
        have member : server ∈ servers := List.mem_of_find?_eq_some row
        unfold Server.record at here
        split at here
        · cases here
        · next secret stored =>
          split at here
          · cases here
          · cases here
            exact ⟨server.id, digestOf_eq_some.mpr ⟨server, member, rfl, secret, stored, rfl⟩⟩
      · exact ih here
  exact loop _ found

theorem returned_eq_some {call : GetServer} {record : Record}
    (accepted : returned sha256 s call = some (some record)) :
    ∃ key secret lookup, parseToken call.token = some (key, secret) ∧ s.calls call = some lookup ∧
      lookup.stage = .answered (some record) ∧ record.secretSha256 = sha256 secret := by
  unfold returned at accepted
  split at accepted
  · cases accepted
  · next key secret parsed =>
    split at accepted
    · next key' mark server calls =>
      have checked := Option.some.inj accepted
      unfold checkSecret at checked
      split at checked
      · cases checked
      · split at checked
        · next same =>
          cases checked
          exact ⟨key, secret, _, parsed, calls, rfl, same⟩
        · cases checked
    · cases accepted

theorem parseToken_getToken {key : String} (dotless : '.' ∉ key.toList) {secret : String}
    {parts : String × String} (parsed : parseToken (getToken key secret) = some parts) :
    parts = (key, secret) := by
  have whole : partition '.' (getToken key secret) = some (key, secret) :=
    partition_append dotless secret
  unfold parseToken at parsed
  rw [whole] at parsed
  simp only at parsed
  split at parsed
  · cases parsed
  · exact (Option.some.inj parsed).symm

theorem digests_rotate {id : Doctype × String} {server : Server} {old secret : String}
    (generated : Generated sha256 s (.commit (.rotate id secret)))
    (rotation : step sha256 s (.commit (.rotate id secret)) = some next)
    (holds : s.servers.get id = some server) (stored : server.suiteCloudSecret = some old) :
    next.commits = s.commits + 1 ∧ digests sha256 s s.commits id = some (sha256 old) ∧
      digests sha256 next (s.commits + 1) id ≠ some (sha256 old) := by
  obtain ⟨here, rfl⟩ := Keyed.get_eq_some.mp holds
  obtain ⟨asked, requested, moved⟩ := step_eq_some rotation
  obtain ⟨done, applied, rfl⟩ := Option.map_eq_some_iff.mp requested
  obtain ⟨before, found, rfl⟩ := Option.map_eq_some_iff.mp applied
  obtain rfl : server = before := Option.some.inj (holds.symm.trans found)
  cases moved
  refine ⟨rfl, digestOf_eq_some.mpr ⟨server, here, rfl, old, stored, rfl⟩, ?_⟩
  have put := digestOf_put sha256 { server with suiteCloudSecret := some secret } found server.id
  rw [digests_commit rfl, if_pos rfl]
  intro same
  have digest := ((put.trans (if_pos rfl)).symm.trans same)
  exact generated s.commits le_rfl server here old stored (Option.some.inj digest)

/-- **A rotated token stops working**, in timely runs: whatever happens before the rotation, between
it and the clear of its commit, and after, no call that starts after the clear accepts a token made of
the server's old secret. -/
theorem rotated_token_refused {before rotated waiting cleared after : State}
    (reached : Reaches (step sha256) (Allowed sha256) State.initial before)
    {id : Doctype × String} {server : Server} (holds : before.servers.get id = some server)
    {old secret : String} (stored : server.suiteCloudSecret = some old)
    (allowed : Allowed sha256 before (.commit (.rotate id secret)))
    (rotation : step sha256 before (.commit (.rotate id secret)) = some rotated)
    (meanwhile : Reaches (step sha256) (Allowed sha256) rotated waiting)
    (clear : step sha256 waiting (.clear server.suiteCloudKey rotated.commits) = some cleared)
    (later : Reaches (step sha256) (Allowed sha256) cleared after)
    {call : GetServer} (unstarted : cleared.calls call = none)
    (token : call.token = getToken server.suiteCloudKey old) (record : Record) :
    returned sha256 after call ≠ some (some record) := by
  intro accepted
  have toWaiting := (reached.next allowed rotation).trans meanwhile
  have clears : Allowed sha256 waiting (.clear server.suiteCloudKey rotated.commits) :=
    ⟨fun _ asked => by cases asked; trivial, trivial⟩
  have toAfter := (toWaiting.next clears clear).trans later
  obtain ⟨key, given, lookup, parsed, calls, answered, same⟩ := returned_eq_some accepted
  -- the call looked up the server's own key, with the old secret
  have dotless := (sound_of_reaches reached).dotless before.commits le_rfl server
    (Keyed.get_eq_some.mp holds).1
  obtain ⟨secret', lookedUp⟩ := (sound_of_reaches toAfter).parsed call lookup calls
  rw [token] at parsed lookedUp
  cases parseToken_getToken dotless parsed
  have sameKey : lookup.key = server.suiteCloudKey :=
    congrArg Prod.fst (parseToken_getToken dotless lookedUp)
  -- so it was answered with a commit from the rotation on
  obtain ⟨asked, requested, moved⟩ := step_eq_some clear
  cases requested
  rw [← sameKey] at moved
  obtain ⟨commit, since, bounded, found⟩ := CacheAside.answered_after_clear
    (reaches_cache toWaiting) moved unstarted (reaches_cache later) calls answered
  -- and no server has the old digest from there on
  obtain ⟨commits, had, gaveUp⟩ := digests_rotate allowed.2 rotation holds stored
  obtain ⟨holder, has⟩ := digestOf_findServer found
  have toRotated := CacheAside.Extends.of_reaches (reaches_cache (meanwhile.trans
    ((Reaches.single _ clears clear).trans later)))
  have step := CacheAside.Extends.of_reaches (reaches_cache (Reaches.single _ allowed rotation))
  have sound := sound_of_reaches toAfter
  have hadAfter : digests sha256 after before.commits id = some (sha256 old) := by
    rw [digests, toRotated.tables_eq _ step.commits_le, step.tables_eq _ le_rfl]
    exact had
  have gaveUpAfter : digests sha256 after (before.commits + 1) id ≠ some (sha256 old) := by
    rw [digests, toRotated.tables_eq _ commits.ge]
    exact gaveUp
  rw [commits] at since
  exact never_again sound.nobody sound.issued hadAfter gaveUpAfter since bounded holder
    (has.trans (congrArg some same))

end Runs

/-! ### A late store -/

namespace Example

/-- SHA-256 on the two secrets of the runs below. -/
def digest (secret : String) : String :=
  if secret = "3b1e0c5fa2d94786b0c3e1f58a7d29643c0b1e7f" then
    "4b320f2ebfb17bdc70a7f939a7726d630dcb54fcb464618d3096fed8f399dde7"
  else if secret = "d84f7a106be2359c41f0a8d6e793b25c0e6a4f18" then
    "5889452b90116eb8926f0f4260dccf58f6df0b40881c381a1867a044f62ac9d5"
  else ""

def node : Server where
  doctype := .stalwartNode
  name := "n1.blr.frappemail.com"
  cluster := "blr"
  hostname := "n1.blr.frappemail.com"
  ipv4Address := "192.0.2.7"
  suiteCloudKey := "9f2c61d0a4e87b35c1d6"
  suiteCloudSecret := some "3b1e0c5fa2d94786b0c3e1f58a7d29643c0b1e7f"

def rotation : Action := .commit (.rotate node.id "d84f7a106be2359c41f0a8d6e793b25c0e6a4f18")

/-- Two calls with the token the node has first. -/
def early : GetServer := ⟨1, getToken node.suiteCloudKey "3b1e0c5fa2d94786b0c3e1f58a7d29643c0b1e7f"⟩

def late : GetServer := { early with id := 2 }

/-- The first call misses and reads the row and the secret. -/
def loads : List Action :=
  [.commit (.create node), .start early, .advance early, .advance early, .advance early]

/-- The second call, to its answer from the cache. -/
def asks : List Action := [.start late, .advance late]

/-- and to its answer from the database. -/
def reads : List Action := asks ++ [Action.advance late, .advance late, .advance late]

end Example

open Example in
/-- **The first call stores what it read before the rotation after its clear**, and the second call,
which starts then, accepts the old token. -/
theorem rotated_token_accepted :
    ∃ before rotated cleared after : State,
      Reaches (step digest) (Generated digest) State.initial before ∧
      before.servers.get node.id = some node ∧
      Generated digest before rotation ∧
      step digest before rotation = some rotated ∧
      step digest rotated (.clear node.suiteCloudKey rotated.commits) = some cleared ∧
      Reaches (step digest) (Generated digest) cleared after ∧
      cleared.calls late = none ∧
      late.token = getToken node.suiteCloudKey "3b1e0c5fa2d94786b0c3e1f58a7d29643c0b1e7f" ∧
      ∃ record, returned digest after late = some (some record) := by
  have ran : (run (step digest) State.initial loads).bind (fun before =>
      (step digest before rotation).bind fun rotated =>
        (step digest rotated (.clear node.suiteCloudKey rotated.commits)).bind fun cleared =>
          (run (step digest) cleared (.advance early :: asks)).map fun after =>
            decide (before.servers.get node.id = some node ∧ Generated digest before rotation ∧
              RunMeets (step digest) (Generated digest) State.initial loads ∧
              RunMeets (step digest) (Generated digest) cleared (.advance early :: asks) ∧
              (cleared.calls late).isNone ∧
              returned digest after late = some (node.record digest))) = some true := by
    decide +kernel
  obtain ⟨before, toBefore, ran⟩ := Option.bind_eq_some_iff.mp ran
  obtain ⟨rotated, toRotated, ran⟩ := Option.bind_eq_some_iff.mp ran
  obtain ⟨cleared, toCleared, ran⟩ := Option.bind_eq_some_iff.mp ran
  obtain ⟨after, toAfter, seen⟩ := Option.map_eq_some_iff.mp ran
  obtain ⟨holds, generated, meets, meetsLater, unstarted, accepted⟩ := of_decide_eq_true seen
  exact ⟨before, rotated, cleared, after, reaches_of_run meets toBefore, holds, generated, toRotated,
    toCleared, reaches_of_run meetsLater toAfter, Option.isNone_iff_eq_none.mp unstarted, rfl,
    _, accepted⟩

open Example in
/-- The same two calls where the first one stores before the rotation: the second one reads the new
secret, and refuses. -/
theorem rotated_token_refused_late :
    ∃ before rotated cleared after : State,
      step digest before rotation = some rotated ∧
      step digest rotated (.clear node.suiteCloudKey rotated.commits) = some cleared ∧
      Reaches (step digest) (Allowed digest) cleared after ∧
      returned digest after late = some none ∧
      ∀ record, returned digest after late ≠ some (some record) := by
  have ran : (run (step digest) State.initial (loads ++ [Action.advance early])).bind (fun before =>
      (step digest before rotation).bind fun rotated =>
        (step digest rotated (.clear node.suiteCloudKey rotated.commits)).bind fun cleared =>
          (run (step digest) cleared reads).map fun after =>
            decide (before.servers.get node.id = some node ∧ Allowed digest before rotation ∧
              RunMeets (step digest) (Allowed digest) State.initial (loads ++ [Action.advance early]) ∧
              RunMeets (step digest) (Allowed digest) cleared reads ∧
              (cleared.calls late).isNone ∧
              returned digest after late = some none)) = some true := by
    decide +kernel
  obtain ⟨before, toBefore, ran⟩ := Option.bind_eq_some_iff.mp ran
  obtain ⟨rotated, toRotated, ran⟩ := Option.bind_eq_some_iff.mp ran
  obtain ⟨cleared, toCleared, ran⟩ := Option.bind_eq_some_iff.mp ran
  obtain ⟨after, toAfter, seen⟩ := Option.map_eq_some_iff.mp ran
  obtain ⟨holds, allowed, meets, meetsLater, unstarted, refused⟩ := of_decide_eq_true seen
  have later := reaches_of_run meetsLater toAfter
  exact ⟨before, rotated, cleared, after, toRotated, toCleared, later, refused,
    rotated_token_refused (reaches_of_run meets toBefore) holds rfl allowed toRotated .start
      toCleared later (Option.isNone_iff_eq_none.mp unstarted) rfl⟩

end SuiteCloud.Mail.Cluster.ServerToken
