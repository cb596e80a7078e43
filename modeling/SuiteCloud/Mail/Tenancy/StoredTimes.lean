/-
**Times in the database.**

`local_datetime` and `utc_iso` of `suite_cloud/utils`, and the shapes of a credential in
`suite_cloud/mail/tenancy/account_credentials.py`. An instant becomes the naive time that the system's clocks
show at it; in memory that keeps its fold, in a Datetime column it does not. An instant stands for its text,
which names it to the whole second.

* `localDatetime`, `column`, `utcIso` — from an instant to a column and back.
* `asRow`, `fields`, `patch` — a credential as it is loaded, compared and sent.
* `Survives` — an instant is handed out as it was stored, and what is made of it with it.
* `survives_iff` — **that holds of the first instant that the clocks show a time at**, and of no other.
-/

import SuiteCloud.Library.Lines
import SuiteCloud.Library.Text
import SuiteCloud.Library.TimeZone

namespace SuiteCloud.Mail.Tenancy

open SuiteCloud.Library

/-! ### Times -/

section Times

variable (zone : TimeZone)

/-- **`local_datetime`**, of an instant in UTC. -/
def localDatetime (value : Option ℤ) : Option LocalTime := value.map zone.toLocal

/-- **`utc_iso`**, of a naive time. -/
def utcIso (value : Option LocalTime) : Option ℤ := value.map zone.toUtc

/-- What a Datetime column keeps. -/
def column (value : Option LocalTime) : Option LocalTime := value.map LocalTime.unfolded

/-! ### Credentials -/

/-- A credential as the cluster gives it. -/
structure Live where
  id : String
  description : Option String
  expiresAt : Option ℤ
  allowedIps : List String
  createdAt : Option ℤ

/-- A Mail Credential. -/
structure MailCredential where
  credentialId : String
  description : String
  expiresAt : Option LocalTime
  allowedIps : String
  createdAt : Option LocalTime

/-- A row as it is read again. -/
def MailCredential.stored (row : MailCredential) : MailCredential :=
  { row with expiresAt := column row.expiresAt, createdAt := column row.createdAt }

/-- **`as_row`**. -/
def asRow (live : Live) : MailCredential where
  credentialId := live.id
  description := (live.description.filter (· ≠ "")).getD live.id
  expiresAt := localDatetime zone live.expiresAt
  allowedIps := "\n".intercalate live.allowedIps
  createdAt := localDatetime zone live.createdAt

/-- **`fields`**. -/
def fields (row : MailCredential) : String × String × Option ℤ × String :=
  (row.credentialId, row.description, utcIso zone row.expiresAt, row.allowedIps)

/-- `parse_ips`; none where an address or network is not one. -/
def parseIps (isNetwork : String → Bool) (text : String) : Option (List String) :=
  let lines := (splitlines (text.toList.map fun c => if c = ',' then '\n' else c)).map String.ofList
  let ips := (lines.map strip).filter (· ≠ "")
  if ips.all isNetwork then some ips else none

/-- What the cluster is sent. -/
structure Patch where
  description : String
  expiresAt : Option ℤ
  allowedIps : List String

/-- **`patch`**, and the fields of **`credential`**. -/
def patch (isNetwork : String → Bool) (row : MailCredential) : Option Patch :=
  (parseIps isNetwork row.allowedIps).map fun ips => ⟨row.description, utcIso zone row.expiresAt, ips⟩

end Times

/-! ### What survives -/

section Survival

variable {zone : TimeZone} {t : ℤ}

/-- **An instant survives storage**: it is handed out as it was; an expiry stored at it is sent as it was; and
a credential that expires at it is stored as it was loaded. -/
structure Survives (zone : TimeZone) (t : ℤ) : Prop where
  handed : utcIso zone (column (localDatetime zone (some t))) = some t
  sent : ∀ isNetwork row, row.expiresAt = column (localDatetime zone (some t)) →
    ∀ given ∈ patch zone isNetwork row, given.expiresAt = some t
  unchanged : ∀ live, live.expiresAt = some t →
    fields zone (asRow zone live).stored = fields zone (asRow zone live)

theorem utcIso_localDatetime (value : Option ℤ) : utcIso zone (localDatetime zone value) = value := by
  cases value with
  | none => rfl
  | some t => exact congrArg some (zone.toUtc_toLocal t)

theorem Survives.of_handed (handed : utcIso zone (column (localDatetime zone (some t))) = some t) :
    Survives zone t := by
  refine ⟨handed, fun isNetwork row stored given sent => ?_, fun live expires => ?_⟩
  · obtain ⟨ips, -, rfl⟩ := Option.map_eq_some_iff.mp sent
    show utcIso zone row.expiresAt = some t
    rw [stored, handed]
  · have same : utcIso zone (asRow zone live).stored.expiresAt = utcIso zone (asRow zone live).expiresAt := by
      show utcIso zone (column (localDatetime zone live.expiresAt))
        = utcIso zone (localDatetime zone live.expiresAt)
      rw [expires, handed, utcIso_localDatetime]
    rw [fields, fields, same]
    rfl

/-- **An instant survives storage where the clocks showed its time at no earlier one**: outside the second
pass of a repeated hour. -/
theorem survives_iff (zone : TimeZone) (t : ℤ) :
    Survives zone t ↔ ∀ s < t, (zone.toLocal s).wall ≠ (zone.toLocal t).wall := by
  rw [← zone.toUtc_unfolded_iff]
  constructor
  · exact fun survives => Option.some.inj survives.handed
  · exact fun found => .of_handed (congrArg some found)

end Survival

/-- Central European time in 2026: the summer's clocks are moved back at 01:00 UTC on October 25. -/
def berlin : TimeZone where
  first := 3600
  changes := [⟨1774746000, 7200⟩, ⟨1792890000, 3600⟩]
  apart := by simp [Apart, Change.wall]

/-- The second time that the clocks show two o'clock is handed out as the first. -/
theorem repeated_hour_lost : ¬ ∀ zone t, Survives zone t := by
  intro survives
  have handed := (survives berlin 1792890000).handed
  exact absurd handed (by decide)

end SuiteCloud.Mail.Tenancy
