/-
**Setting a password, among an account's other credentials.**

`AccountService.set_password` of `suite_cloud/mail/stalwart/directory.py`. The credentials of an account
are a map from keys to passwords, app passwords and API keys. The first password's secret is patched under
its path; where there is none, the whole map is replaced by one with a further entry, whose key is the
number of entries.

* `Credential`, `Update`, `setPassword` — the map, and the update that is sent.
* `Server` — what the server does with an update under a path; the map it returned is the one it has.
* `SetsPassword` — what is wanted: the other credentials as they were, and the new secret in a password.
* `Room` — the path names a password, or the new key is free.
* `other_credentials_kept_iff` — **every other credential is kept**, whatever the new password, when there
  is room for it, and only then.
* `app_password_lost` — an account whose one entry, an app password, has the key `1`.
-/

import Mathlib.Data.Fintype.EquivFin
import SuiteCloud.Library.Dict
import SuiteCloud.Library.JsonPointer

namespace SuiteCloud.Mail.Stalwart.SetPassword

open SuiteCloud.Library

variable {Field : Type}

/-! ## Credentials -/

/-- `@type` of a credential. -/
inductive CredentialType
  | password
  | appPassword
  | apiKey
  deriving DecidableEq

/-- A credential: its type, its secret, and its other properties. -/
structure Credential (Field : Type) where
  type : CredentialType
  secret : String
  fields : Dict String Field
  deriving DecidableEq

/-- `credentials` of an account. -/
abbrev Credentials (Field : Type) := Dict String (Credential Field)

/-- What `update` is asked for. -/
inductive Update (Field : Type)
  /-- `{"credentials": …}`. -/
  | replace (credentials : Credentials Field)
  /-- A key that is a path. -/
  | patch (path secret : String)

/-- The first password there is. -/
def passwordRow (credentials : Credentials Field) : Option (String × Credential Field) :=
  credentials.find? fun entry => entry.2.type = .password

/-- The path of a credential's secret. -/
def secretPath (row : String) : String := "credentials" ++ "/" ++ row ++ "/" ++ "secret"

/-- **`set_password`**: the update it sends, once it has read the map. -/
def setPassword (credentials : Credentials Field) (newPassword : String) : Update Field :=
  match passwordRow credentials with
  -- No password row to patch into: a path needs existing parents.
  | none => .replace (credentials.set (toString credentials.length) ⟨.password, newPassword, []⟩)
  | some row => .patch (secretPath row.1) newPassword

/-- **A server that takes patches**: a path of a credential's secret sets it where the credential is
there, and is refused where it is not; a path of another shape sets no secret. -/
structure Server (Field : Type) where
  setAt : Credentials Field → List String → String → Option (Credentials Field)
  setAt_there : ∀ {credentials key credential secret}, Dict.get credentials key = some credential →
    setAt credentials ["credentials", key, "secret"] secret
      = some (credentials.set key { credential with secret := secret })
  setAt_missing : ∀ {credentials key secret}, Dict.get credentials key = none →
    setAt credentials ["credentials", key, "secret"] secret = none
  setAt_elsewhere : ∀ {credentials path secret after},
    (∀ key, path ≠ ["credentials", key, "secret"]) → setAt credentials path secret = some after →
      ∀ key credential, Dict.get after key = some credential →
        ∃ before, Dict.get credentials key = some before ∧ before.secret = credential.secret

/-- The account's credentials after an update; `none` where it is refused. -/
def Server.apply (server : Server Field) (credentials : Credentials Field) :
    Update Field → Option (Credentials Field)
  | .replace credentials => some credentials
  | .patch path secret => server.setAt credentials (tokens path) secret

/-! ## What is wanted -/

/-- **The password is set**: the other credentials are the same under the same keys, and a password
carries the new secret. -/
def SetsPassword (before after : Credentials Field) (newPassword : String) : Prop :=
  (∀ key credential, credential.type ≠ .password →
    (Dict.get after key = some credential ↔ Dict.get before key = some credential)) ∧
  ∃ key credential, Dict.get after key = some credential ∧ credential.type = .password ∧
    credential.secret = newPassword

/-- **There is room for the password**: the path of the first one names a password; where there is none,
no entry has the number of entries for a key. -/
def Room (credentials : Credentials Field) : Prop :=
  match passwordRow credentials with
  | none => toString credentials.length ∉ credentials.keys
  | some row => ∃ key credential, tokens (secretPath row.1) = ["credentials", key, "secret"] ∧
      Dict.get credentials key = some credential ∧ credential.type = .password

variable {server : Server Field} {credentials after : Credentials Field} {key : String}
  {credential : Credential Field} {row : String × Credential Field}

theorem tokens_secretPath (row : String) :
    tokens (secretPath row) = "credentials" :: (tokens row ++ ["secret"]) := by
  have first : tokens "credentials" = ["credentials"] := by decide
  have last : tokens "secret" = ["secret"] := by decide
  rw [secretPath, tokens_append, tokens_append, first, last]
  rfl

theorem passwordRow_eq_none (none : passwordRow credentials = none)
    (distinct : credentials.keys.Nodup) (there : Dict.get credentials key = some credential) :
    credential.type ≠ .password := fun password =>
  List.find?_eq_none.mp none (key, credential) ((Dict.get_eq_some distinct).mp there)
    (decide_eq_true password)

/-! ## When the other credentials are kept -/

theorem exists_fresh (credentials : Credentials Field) :
    ∃ newPassword : String, ∀ key credential, Dict.get credentials key = some credential →
      credential.secret ≠ newPassword := by
  obtain ⟨newPassword, fresh⟩ :=
    Infinite.exists_notMem_finset (credentials.map fun entry => entry.2.secret).toFinset
  refine ⟨newPassword, fun key credential there same => fresh ?_⟩
  obtain ⟨entry, member, rfl⟩ := Option.map_eq_some_iff.mp there
  rw [List.mem_toFinset, ← same]
  exact List.mem_map_of_mem (List.mem_of_find?_eq_some member)

theorem setsPassword_set {newPassword : String} (there : Dict.get credentials key = some credential)
    (password : credential.type = .password) :
    SetsPassword credentials (credentials.set key { credential with secret := newPassword })
      newPassword := by
  constructor
  · intro other found different
    rw [Dict.get_set]
    by_cases same : other = key
    · subst same
      rw [if_pos rfl, there]
      constructor
      · intro equal
        obtain rfl := Option.some.inj equal
        exact absurd password different
      · intro equal
        obtain rfl := Option.some.inj equal
        exact absurd password different
    · rw [if_neg same]
  · refine ⟨key, { credential with secret := newPassword }, ?_, password, rfl⟩
    rw [Dict.get_set, if_pos rfl]

theorem setsPassword_add {newPassword : String} (free : key ∉ credentials.keys) :
    SetsPassword credentials (credentials.set key ⟨.password, newPassword, []⟩) newPassword := by
  constructor
  · intro other found different
    rw [Dict.get_set]
    by_cases same : other = key
    · subst same
      rw [if_pos rfl, Dict.get_eq_none.mpr free]
      constructor
      · intro equal
        obtain rfl := Option.some.inj equal
        exact absurd rfl different
      · intro equal
        cases equal
    · rw [if_neg same]
  · refine ⟨key, ⟨.password, newPassword, []⟩, ?_, rfl, rfl⟩
    rw [Dict.get_set, if_pos rfl]

theorem names_of_setsPassword {path : List String} {newPassword : String}
    (fresh : ∀ key credential, Dict.get credentials key = some credential →
      credential.secret ≠ newPassword)
    (accepted : server.setAt credentials path newPassword = some after)
    (sets : SetsPassword credentials after newPassword) :
    ∃ key credential, path = ["credentials", key, "secret"] ∧
      Dict.get credentials key = some credential ∧ credential.type = .password := by
  obtain ⟨others, changed, new, found, password, secret⟩ := sets
  by_cases shape : ∃ key, path = ["credentials", key, "secret"]
  · obtain ⟨key, rfl⟩ := shape
    cases there : Dict.get credentials key with
    | none =>
      rw [server.setAt_missing there] at accepted
      cases accepted
    | some credential =>
      refine ⟨key, credential, rfl, there, ?_⟩
      rw [server.setAt_there there] at accepted
      obtain rfl := Option.some.inj accepted
      -- Another credential would not be as it was.
      by_contra different
      have kept := (others key credential different).mpr there
      rw [Dict.get_set, if_pos rfl] at kept
      exact fresh key credential there (congrArg Credential.secret (Option.some.inj kept)).symm
  · have elsewhere : ∀ key, path ≠ ["credentials", key, "secret"] :=
      fun key same => shape ⟨key, same⟩
    obtain ⟨before, there, same⟩ := server.setAt_elsewhere elsewhere accepted changed new found
    exact absurd (same.trans secret) (fresh changed before there)

/-- **When every other credential is kept.** For every map of credentials that the server returns,
`set_password` succeeds whatever the new password, leaves every credential that is no password as it was
under its key, and leaves a password with the new secret, if and only if there is room for it. -/
theorem other_credentials_kept_iff (server : Server Field) (credentials : Credentials Field)
    (distinct : credentials.keys.Nodup) :
    (∀ newPassword, ∃ after, server.apply credentials (setPassword credentials newPassword) = some after ∧
      SetsPassword credentials after newPassword) ↔ Room credentials := by
  unfold setPassword Room
  cases found : passwordRow credentials with
  | none =>
    constructor
    · intro sets taken
      obtain ⟨after, accepted, others, -⟩ := sets ""
      obtain rfl := Option.some.inj accepted
      cases there : Dict.get credentials (toString credentials.length) with
      | none => exact Dict.get_eq_none.mp there taken
      | some credential =>
        have different := passwordRow_eq_none found distinct there
        have kept := (others _ credential different).mpr there
        rw [Dict.get_set, if_pos rfl] at kept
        obtain rfl := Option.some.inj kept
        exact different rfl
    · intro free newPassword
      exact ⟨_, rfl, setsPassword_add free⟩
  | some row =>
    constructor
    · intro sets
      obtain ⟨newPassword, fresh⟩ := exists_fresh credentials
      obtain ⟨after, accepted, sets⟩ := sets newPassword
      exact names_of_setsPassword fresh accepted sets
    · rintro ⟨key, credential, path, there, password⟩ newPassword
      refine ⟨_, ?_, setsPassword_set there password⟩
      rw [Server.apply, path, server.setAt_there there]

/-! ## A server, and two accounts -/

/-- A server that refuses every other path. -/
def strictServer : Server Field where
  setAt credentials path secret :=
    match path with
    | ["credentials", key, "secret"] =>
        (Dict.get credentials key).map fun credential =>
          credentials.set key { credential with secret := secret }
    | _ => none
  setAt_there := by
    intro credentials key credential secret there
    show (Dict.get credentials key).map _ = _
    rw [there, Option.map_some]
  setAt_missing := by
    intro credentials key secret absent
    show (Dict.get credentials key).map _ = _
    rw [absent, Option.map_none]
  setAt_elsewhere := by
    intro credentials path secret after elsewhere accepted
    split at accepted
    · rename_i key
      exact absurd rfl (elsewhere key)
    · cases accepted

/-- A password and an app password. -/
def fullAccount : Credentials Unit := [("0", ⟨.password, "old", []⟩), ("1", ⟨.appPassword, "site", []⟩)]

/-- The password is set, and the app password stays. -/
theorem other_credentials_kept_iff_full :
    ∃ after, (strictServer : Server Unit).apply fullAccount (setPassword fullAccount "new") = some after ∧
      SetsPassword fullAccount after "new" := by
  refine (other_credentials_kept_iff strictServer fullAccount (by decide)).mpr ?_ "new"
  refine ⟨"0", ⟨.password, "old", []⟩, ?_, rfl, rfl⟩
  rw [tokens_secretPath]
  decide

/-- One app password, which came second. -/
def lastAppPassword : Credentials Unit := [("1", ⟨.appPassword, "site", []⟩)]

/-- **The app password is lost**: the new password takes the key `1`, the number of entries. -/
theorem app_password_lost :
    (strictServer : Server Unit).apply lastAppPassword (setPassword lastAppPassword "new")
        = some [("1", ⟨.password, "new", []⟩)] ∧
      ¬ SetsPassword lastAppPassword [("1", ⟨.password, "new", []⟩)] "new" := by
  constructor
  · rfl
  · rintro ⟨others, -⟩
    have kept := (others "1" ⟨.appPassword, "site", []⟩ (by decide)).mpr (by decide)
    exact absurd kept (by decide)

end SuiteCloud.Mail.Stalwart.SetPassword
