/-
**The disk quota in GB.**

`suite_cloud/mail/tenancy/quotas.py`: a limit on disk space is kept in bytes, read in GB to six decimals, and
written in GB as whole bytes; 0 lifts it. Arithmetic is exact here.

* `validate`, `quotaMap`, `diskQuotaGb`, `setDiskQuotaGb` — the rows, read and written.
* `written` — what a number of bytes becomes when its reading is written back.
* `written_eq_iff` — **it stays where it is the whole bytes of a number of millionths**;
  `bytesOf_millionths_near` — it is never far.
* `disk_quota_written_back` — the same, of a document's rows.
-/

import Mathlib.Tactic.NormNum
import SuiteCloud.Library.Rounding

namespace SuiteCloud.Mail.Tenancy

open SuiteCloud.Library

/-! ### The rows -/

/-- A Mail Quota. -/
structure MailQuota where
  quota : String
  value : ℤ
  deriving DecidableEq

/-- The names of `STORAGE_QUOTAS`. -/
def storageQuotas : List String :=
  ["maxDiskQuota", "maxEmails", "maxMailboxes", "maxEmailSubmissions", "maxEmailIdentities",
    "maxParticipantIdentities", "maxSieveScripts", "maxPushSubscriptions", "maxCalendars",
    "maxCalendarEvents", "maxCalendarEventNotifications", "maxAddressBooks", "maxContactCards", "maxFiles",
    "maxFolders", "maxMaskedAddresses", "maxAppPasswords", "maxApiKeys", "maxPublicKeys"]

/-- `DISK_QUOTA`. -/
def diskQuota : String := "maxDiskQuota"

/-- `GB`. -/
def gb : ℕ := 1024 ^ 3

/-- `validate`, after the rows of the names `seen`. -/
def validateFrom : List String → List MailQuota → Bool
  | _, [] => true
  | seen, row :: rest =>
      decide (row.quota ∈ storageQuotas) && decide (row.quota ∉ seen) && decide (0 < row.value) &&
        validateFrom (row.quota :: seen) rest

/-- **`validate`.** -/
def validate (rows : List MailQuota) : Bool := validateFrom [] rows

/-- `disk_row`. -/
def diskRow (rows : List MailQuota) : Option MailQuota := rows.find? (·.quota = diskQuota)

/-- `disk_quota_bytes`. -/
def diskQuotaBytes (rows : List MailQuota) : ℤ := ((diskRow rows).map (·.value)).getD 0

/-- **`quota_map`**: of a name listed twice, the last row. -/
def quotaMap (rows : List MailQuota) (name : String) : Option ℤ :=
  (rows.reverse.find? (·.quota = name)).map (·.value)

/-- **`disk_quota_gb`**, as it is handed out. -/
def diskQuotaGb (rows : List MailQuota) : ℚ := roundTo 6 ((quotaMap rows diskQuota).getD 0 / gb)

/-- The first disk row is set. -/
def setDiskRow (value : ℤ) : List MailQuota → List MailQuota
  | [] => []
  | row :: rest =>
      if row.quota = diskQuota then { row with value := value } :: rest else row :: setDiskRow value rest

/-- **`set_disk_quota_gb`.** -/
def setDiskQuotaGb (given : ℚ) (rows : List MailQuota) : List MailQuota :=
  if given ≤ 0 then rows.eraseP (·.quota = diskQuota)
  else if (diskRow rows).isSome then setDiskRow (truncate (given * gb)) rows
  else rows ++ [⟨diskQuota, truncate (given * gb)⟩]

/-! ### The numbers -/

section Numbers

variable {bytes : ℤ}

/-- The millionths of a GB that a number of bytes is read as. -/
def millionths (bytes : ℤ) : ℤ := roundHalfEven (bytes / gb * 10 ^ 6)

/-- **What a reading is written as.** -/
def written (bytes : ℤ) : ℤ := truncate (roundTo 6 (bytes / gb) * gb)

/-- The whole bytes of so many millionths of a GB. -/
def bytesOf (count : ℤ) : ℤ := ⌊(count * gb / 10 ^ 6 : ℚ)⌋

theorem written_eq (some : 0 ≤ millionths bytes) : written bytes = bytesOf (millionths bytes) := by
  have nonneg : (0 : ℚ) ≤ millionths bytes := by exact_mod_cast some
  have reading : roundTo 6 (bytes / gb : ℚ) = millionths bytes / 10 ^ 6 := rfl
  have same : (millionths bytes / 10 ^ 6 * gb : ℚ) = millionths bytes * gb / 10 ^ 6 := by ring
  rw [written, reading, same, truncate_of_nonneg (by positivity)]
  rfl

/-- A millionth of a GB is about 1074 bytes: what is written is within a half of that, less a byte. -/
theorem bytesOf_millionths_near (bytes : ℤ) :
    bytes - 537 ≤ bytesOf (millionths bytes) ∧ bytesOf (millionths bytes) ≤ bytes + 536 := by
  have most : (millionths bytes : ℚ) ≤ bytes / gb * 10 ^ 6 + 1 / 2 := roundHalfEven_le _
  have least : (bytes / gb * 10 ^ 6 - 1 / 2 : ℚ) ≤ millionths bytes := le_roundHalfEven _
  norm_num [gb] at most least
  constructor
  · refine Int.le_floor.mpr ?_
    push_cast [gb]
    linarith
  · have below : bytesOf (millionths bytes) < bytes + 537 := by
      refine Int.floor_lt.mpr ?_
      push_cast [gb]
      linarith
    omega

theorem bytesOf_pos {count : ℤ} (some : 1 ≤ count) : 0 < bytesOf count := by
  have one : (1 : ℚ) ≤ count := by exact_mod_cast some
  refine Int.lt_of_lt_of_le one_pos (Int.le_floor.mpr ?_)
  push_cast [gb]
  linarith

theorem millionths_bytesOf (count : ℤ) : millionths (bytesOf count) = count := by
  have most : (bytesOf count : ℚ) ≤ count * gb / 10 ^ 6 := Int.floor_le _
  have least : (count * gb / 10 ^ 6 : ℚ) < bytesOf count + 1 := Int.lt_floor_add_one _
  norm_num [gb] at most least
  refine roundHalfEven_eq ?_ ?_
  · norm_num [gb]
    linarith
  · norm_num [gb]
    linarith

/-- **A number of bytes stays** where it is that of a number of millionths. -/
theorem written_eq_iff :
    0 < millionths bytes ∧ written bytes = bytes ↔ ∃ count, 1 ≤ count ∧ bytes = bytesOf count := by
  constructor
  · rintro ⟨some, same⟩
    exact ⟨millionths bytes, some, by rw [← written_eq some.le, same]⟩
  · rintro ⟨count, some, rfl⟩
    have read := millionths_bytesOf count
    refine ⟨by omega, ?_⟩
    rw [written_eq (by omega), read]

end Numbers

/-! ### The document -/

section Rows

variable {rows : List MailQuota} {row : MailQuota} {name : String} {value : ℤ}

theorem validateFrom_eq_true {seen : List String} (valid : validateFrom seen rows = true) :
    (rows.map (·.quota)).Nodup ∧ (∀ row ∈ rows, row.quota ∉ seen) ∧ ∀ row ∈ rows, 0 < row.value := by
  induction rows generalizing seen with
  | nil => exact ⟨List.nodup_nil, fun row among => absurd among List.not_mem_nil,
      fun row among => absurd among List.not_mem_nil⟩
  | cons first rest ih =>
    simp only [validateFrom, Bool.and_eq_true, decide_eq_true_eq] at valid
    obtain ⟨⟨⟨-, fresh⟩, positive⟩, later⟩ := valid
    obtain ⟨once, apart, above⟩ := ih later
    refine ⟨List.nodup_cons.mpr ⟨?_, once⟩, List.forall_mem_cons.mpr ⟨fresh, ?_⟩,
      List.forall_mem_cons.mpr ⟨positive, above⟩⟩
    · intro among
      obtain ⟨row, there, same⟩ := List.mem_map.mp among
      exact apart row there (same ▸ List.mem_cons_self)
    · exact fun row there seenOnce => apart row there (List.mem_cons_of_mem _ seenOnce)

theorem quotaMap_eq (once : (rows.map (·.quota)).Nodup) :
    quotaMap rows name = (rows.find? (·.quota = name)).map (·.value) := by
  induction rows with
  | nil => rfl
  | cons first rest ih =>
    obtain ⟨fresh, once⟩ := List.nodup_cons.mp once
    have later := ih once
    rw [quotaMap, List.reverse_cons, List.find?_append, List.find?_cons]
    by_cases same : first.quota = name
    · have none : rest.reverse.find? (·.quota = name) = none := by
        refine List.find?_eq_none.mpr fun row among => ?_
        rw [decide_eq_true_eq]
        exact fun equal => fresh (List.mem_map.mpr ⟨row, List.mem_reverse.mp among, equal.trans same.symm⟩)
      rw [none, decide_eq_true same]
      simp [same]
    · rw [decide_eq_false same, List.find?_cons, decide_eq_false same, List.find?_nil, Option.or_none]
      exact later

theorem find?_setDiskRow (other : name ≠ diskQuota) :
    (setDiskRow value rows).find? (·.quota = name) = rows.find? (·.quota = name) := by
  induction rows with
  | nil => rfl
  | cons first rest ih =>
    rw [setDiskRow]
    split_ifs with disk
    · have apart : first.quota ≠ name := fun same => other (same.symm.trans disk)
      simp only [List.find?_cons, decide_eq_false apart]
    · simp only [List.find?_cons, ih]

theorem map_quota_setDiskRow : (setDiskRow value rows).map (·.quota) = rows.map (·.quota) := by
  induction rows with
  | nil => rfl
  | cons first rest ih =>
    rw [setDiskRow]
    split_ifs
    · rfl
    · rw [List.map_cons, List.map_cons, ih]

theorem diskQuotaBytes_setDiskRow (there : diskRow rows = some row) :
    diskQuotaBytes (setDiskRow value rows) = value := by
  induction rows with
  | nil => cases there
  | cons first rest ih =>
    rw [setDiskRow]
    split_ifs with disk
    · simp [diskQuotaBytes, diskRow, disk]
    · rw [diskRow, List.find?_cons, decide_eq_false disk] at there
      rw [diskQuotaBytes, diskRow, List.find?_cons, decide_eq_false disk]
      exact ih there

theorem diskQuotaBytes_eraseP (once : (rows.map (·.quota)).Nodup) :
    diskQuotaBytes (rows.eraseP (·.quota = diskQuota)) = 0 := by
  induction rows with
  | nil => rfl
  | cons first rest ih =>
    obtain ⟨fresh, once⟩ := List.nodup_cons.mp once
    by_cases disk : first.quota = diskQuota
    · have none : rest.find? (·.quota = diskQuota) = none := by
        refine List.find?_eq_none.mpr fun row among => ?_
        rw [decide_eq_true_eq]
        exact fun equal => fresh (List.mem_map.mpr ⟨row, among, equal.trans disk.symm⟩)
      rw [List.eraseP_cons_of_pos (by simpa using disk), diskQuotaBytes, diskRow, none]
      rfl
    · rw [List.eraseP_cons_of_neg (by simpa using disk), diskQuotaBytes, diskRow, List.find?_cons,
        decide_eq_false disk]
      exact ih once

/-- **A reading written back.** It leaves a limit that is the whole bytes of a number of millionths of a GB,
and no other; where it is not 0, the limit stays, within 537 bytes of what it was, and so do the others. -/
theorem disk_quota_written_back (rows : List MailQuota) (row : MailQuota) (valid : validate rows = true)
    (disk : diskRow rows = some row) :
    let after := setDiskQuotaGb (diskQuotaGb rows) rows
    (diskQuotaBytes after = row.value ↔ ∃ count, 1 ≤ count ∧ row.value = bytesOf count) ∧
      (0 < diskQuotaGb rows → 0 < diskQuotaBytes after ∧ row.value - 537 ≤ diskQuotaBytes after ∧
        diskQuotaBytes after ≤ row.value + 536 ∧
          ∀ name ≠ diskQuota, quotaMap after name = quotaMap rows name) := by
  obtain ⟨once, -, above⟩ := validateFrom_eq_true valid
  have positive := above row (List.mem_of_find?_eq_some disk)
  have reading : diskQuotaGb rows = roundTo 6 (row.value / gb) := by
    rw [diskQuotaGb, quotaMap_eq once, ← diskRow, disk]
    rfl
  have sign : 0 < diskQuotaGb rows ↔ 0 < millionths row.value := by
    rw [reading, roundTo_pos]
    rfl
  by_cases read : 0 < diskQuotaGb rows
  · have after : setDiskQuotaGb (diskQuotaGb rows) rows = setDiskRow (written row.value) rows := by
      rw [setDiskQuotaGb, if_neg (not_le.mpr read), disk, reading]
      rfl
    have some := sign.mp read
    obtain ⟨least, most⟩ := bytesOf_millionths_near row.value
    simp only [after, diskQuotaBytes_setDiskRow disk]
    refine ⟨?_, fun _ => ⟨?_, ?_, ?_, fun name other => ?_⟩⟩
    · rw [← written_eq_iff]
      exact ⟨fun same => ⟨some, same⟩, And.right⟩
    · rw [written_eq some.le]
      exact bytesOf_pos some
    · rw [written_eq some.le]
      exact least
    · rw [written_eq some.le]
      exact most
    · rw [quotaMap_eq once, quotaMap_eq (by rwa [map_quota_setDiskRow]), find?_setDiskRow other]
  · have after : setDiskQuotaGb (diskQuotaGb rows) rows = rows.eraseP (·.quota = diskQuota) := by
      rw [setDiskQuotaGb, if_pos (not_lt.mp read)]
    simp only [after, diskQuotaBytes_eraseP once]
    refine ⟨⟨fun lifted => absurd positive (by omega), fun exact_ => ?_⟩, fun more => absurd more read⟩
    exact absurd (written_eq_iff.mpr exact_).1 fun some => read (sign.mpr some)

/-- 5 GB stay. -/
theorem disk_quota_written_back_five :
    diskQuotaBytes (setDiskQuotaGb (diskQuotaGb [⟨"maxEmails", 9⟩, ⟨diskQuota, 5368709120⟩])
      [⟨"maxEmails", 9⟩, ⟨diskQuota, 5368709120⟩]) = 5368709120 := by
  refine (disk_quota_written_back [⟨"maxEmails", 9⟩, ⟨diskQuota, 5368709120⟩] ⟨diskQuota, 5368709120⟩
    (by decide) (by decide)).1.mpr ⟨5000000, by decide, ?_⟩
  decide +kernel

/-- A billion bytes are read as 0.931323 GB, which is 456 bytes more. -/
theorem billion_not_written_back : ¬ ∀ rows row, validate rows = true → diskRow rows = some row →
    diskQuotaBytes (setDiskQuotaGb (diskQuotaGb rows) rows) = row.value := by
  intro same
  have billion := same [⟨diskQuota, 1000000000⟩] ⟨diskQuota, 1000000000⟩ (by decide) (by decide)
  exact absurd billion (by decide +kernel)

end Rows

end SuiteCloud.Mail.Tenancy
