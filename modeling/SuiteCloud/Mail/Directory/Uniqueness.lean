/-
**An address exists once.**

Whether an address is free is asked of the primary addresses, with one document left out by its name, and
of one alias row; a document's own list is checked while it is walked. Together they keep every address
to a single place.

### What is proved

* `availability` — what the check of an address says of the other documents, while addresses exist once.
* `address_exists_once` — **in every run** no two documents share a primary address, no alias is a primary
  address, and no alias is in two rows: the addresses of all documents are distinct.
-/

import SuiteCloud.Mail.Directory.Steps

namespace SuiteCloud.Mail.Directory

open SuiteCloud.Library SuiteCloud.Mail.Tenancy

variable {platform : Platform} {s s' : State} {documents : Documents}

/-! ### Addresses exist once -/

/-- **What holds of the documents in every run.** -/
structure Once (documents : Documents) : Prop where
  named : ∀ document ∈ documents, document.email = document.name
  primary : ∀ document ∈ documents, ∀ other ∈ documents, document.email = other.email → document = other
  apart : ∀ document ∈ documents, ∀ other ∈ documents, ∀ aliasEmail ∈ document.aliases,
    aliasEmail ≠ other.email
  owned : ∀ document ∈ documents, ∀ other ∈ documents, ∀ aliasEmail ∈ document.aliases,
    aliasEmail ∈ other.aliases → document = other
  distinct : ∀ document ∈ documents, document.aliases.Nodup

/-- **What the check of an alias says of the other documents.** -/
theorem availability (once : Once documents) {document other : Document} {aliasEmail : String}
    (free : assertAddressAvailable documents aliasEmail (some document.key) = true)
    (different : aliasEmail ≠ document.name) (there : other ∈ documents)
    (apart : other.key ≠ document.key) : aliasEmail ≠ other.email ∧ aliasEmail ∉ other.aliases := by
  obtain ⟨primary, parents⟩ := assertAddressAvailable_eq_true free
  constructor
  · rintro rfl
    have same := Option.some.inj (primary other there (once.named other there).symm)
    exact apart same.symm
  · intro listed
    obtain ⟨parent, found⟩ := aliasParent_isSome there listed
    obtain ⟨owner, inside, key, listed'⟩ := aliasParent_eq_some found
    have same := Option.some.inj (parents parent found)
    rw [once.owned other there owner inside aliasEmail listed listed', key, same] at apart
    exact apart rfl

/-- A document written in the place of the one of its key, if any. -/
theorem Once.write (once : Once documents) {document : Document} {left : Documents}
    (named : document.email = document.name) (distinct : document.aliases.Nodup)
    (others : ∀ other ∈ documents, other.key ≠ document.key → document.email ≠ other.email ∧
      document.email ∉ other.aliases)
    (aliases : ∀ aliasEmail ∈ document.aliases, aliasEmail ≠ document.email ∧
      assertAddressAvailable documents aliasEmail (some document.key) = true)
    (after : ∀ other, other ∈ left ↔ other = document ∨ (other ∈ documents ∧ other.key ≠ document.key)) :
    Once left := by
  have free : ∀ other ∈ documents, other.key ≠ document.key → ∀ aliasEmail ∈ document.aliases,
      aliasEmail ≠ other.email ∧ aliasEmail ∉ other.aliases := by
    intro other there apart aliasEmail member
    obtain ⟨different, available⟩ := aliases aliasEmail member
    exact availability once available (named ▸ different) there apart
  refine ⟨?_, ?_, ?_, ?_, ?_⟩
  · intro one here
    rcases (after one).mp here with rfl | ⟨here, -⟩
    · exact named
    · exact once.named one here
  · intro one here two there same
    rcases (after one).mp here with rfl | ⟨here, key⟩
    · rcases (after two).mp there with rfl | ⟨there, key⟩
      · rfl
      · exact absurd same (others two there key).1
    · rcases (after two).mp there with rfl | ⟨there, -⟩
      · exact absurd same.symm (others one here key).1
      · exact once.primary one here two there same
  · intro one here two there aliasEmail member
    rcases (after one).mp here with rfl | ⟨here, key⟩
    · rcases (after two).mp there with rfl | ⟨there, key⟩
      · exact (aliases aliasEmail member).1
      · exact (free two there key aliasEmail member).1
    · rcases (after two).mp there with rfl | ⟨there, -⟩
      · rintro rfl
        exact (others one here key).2 member
      · exact once.apart one here two there aliasEmail member
  · intro one here two there aliasEmail member also
    rcases (after one).mp here with rfl | ⟨here, key⟩
    · rcases (after two).mp there with rfl | ⟨there, key⟩
      · rfl
      · exact absurd also (free two there key aliasEmail member).2
    · rcases (after two).mp there with rfl | ⟨there, -⟩
      · exact absurd member (free one here key aliasEmail also).2
      · exact once.owned one here two there aliasEmail member also
  · intro one here
    rcases (after one).mp here with rfl | ⟨here, -⟩
    · exact distinct
    · exact once.distinct one here

theorem Once.insert (once : Once s.documents) {doctype : Doctype} {email : String} {form : Form}
    {admitted : Bool} (taken : s.insertDocument platform doctype email form admitted = some s') :
    Once s'.documents := by
  obtain ⟨document, domain, left, named, written, done, rfl⟩ := insertDocument_eq_some taken
  obtain ⟨fresh, after⟩ := Keyed.mem_insert done
  obtain ⟨primary, parents⟩ := assertAddressAvailable_eq_true written.free
  refine once.write named written.aliases_once ?_ ?_ ?_
  · intro other there _
    refine ⟨fun same => ?_, fun listed => ?_⟩
    · exact absurd (primary other there ((once.named other there).symm.trans same.symm)) nofun
    · obtain ⟨parent, found⟩ := aliasParent_isSome there listed
      exact absurd (parents parent found) nofun
  · exact fun aliasEmail member =>
      ⟨(written.aliases aliasEmail member).1, (written.aliases aliasEmail member).2.2.2⟩
  · intro other
    rw [after]
    exact or_congr_right (and_iff_left_of_imp (fresh other)).symm

theorem Once.save (once : Once s.documents) {doctype : Doctype} {name : String} {form : Form}
    (taken : s.saveDocument platform doctype name form = some s') : Once s'.documents := by
  obtain ⟨stored, here, document, domain, keys, same, written, rfl⟩ := saveDocument_eq_some taken
  refine once.write ?_ written.aliases_once ?_ ?_ fun other => Keyed.mem_put here keys
  · rw [same, once.named stored here]
    exact (Prod.mk.inj keys).2
  · intro other there apart
    rw [same]
    refine ⟨fun equal => apart ?_, fun listed => ?_⟩
    · rw [← once.primary stored here other there equal, keys]
    · exact once.apart other there stored here _ listed rfl
  · exact fun aliasEmail member =>
      ⟨(written.aliases aliasEmail member).1, (written.aliases aliasEmail member).2.2.2⟩

theorem Once.shrink (once : Once documents) {left : Documents}
    (before : ∀ document ∈ left, ∃ other ∈ documents, other.key = document.key ∧
      other.email = document.email ∧ other.aliases = document.aliases) : Once left := by
  have back : ∀ one ∈ left, ∀ two ∈ left, ∀ {first second : Document}, first.key = one.key → second.key = two.key →
      first = second → one = two := by
    intro one here two there first second key key' same
    exact Keyed.eq_of_key here there (by rw [← key, ← key', same])
  refine ⟨?_, ?_, ?_, ?_, ?_⟩
  · intro one here
    obtain ⟨first, inside, key, email, -⟩ := before one here
    rw [← email, once.named first inside]
    exact (Prod.mk.inj key).2
  · intro one here two there same
    obtain ⟨first, inside, key, email, -⟩ := before one here
    obtain ⟨second, inside', key', email', -⟩ := before two there
    refine back one here two there key key' (once.primary first inside second inside' ?_)
    rw [email, email', same]
  · intro one here two there aliasEmail member
    obtain ⟨first, inside, -, -, aliases⟩ := before one here
    obtain ⟨second, inside', -, email', -⟩ := before two there
    rw [← email']
    exact once.apart first inside second inside' aliasEmail (aliases ▸ member)
  · intro one here two there aliasEmail member also
    obtain ⟨first, inside, key, -, aliases⟩ := before one here
    obtain ⟨second, inside', key', -, aliases'⟩ := before two there
    exact back one here two there key key' (once.owned first inside second inside' aliasEmail
      (aliases ▸ member) (aliases' ▸ also))
  · intro one here
    obtain ⟨first, inside, -, -, aliases⟩ := before one here
    rw [← aliases]
    exact once.distinct first inside

theorem Once.delete (once : Once s.documents) {doctype : Doctype} {name : String}
    (taken : s.deleteDocument doctype name = some s') : Once s'.documents := by
  obtain ⟨left, rfl, after⟩ := deleteDocument_eq_some taken
  refine once.shrink fun document here => ?_
  obtain ⟨other, inside, -, rfl⟩ := (after document).mp here
  exact ⟨other, inside, rfl, rfl, rfl⟩

/-- **Every step keeps addresses apart.** -/
theorem Once.step (once : Once s.documents) {action : Action}
    (taken : Directory.step platform s action = some s') : Once s'.documents := by
  cases action with
  | insertDocument doctype email form admitted => exact once.insert taken
  | saveDocument doctype name form => exact once.save taken
  | deleteDocument doctype name => exact once.delete taken
  | insertDomain domainName tenant pool adopting admitted =>
    obtain ⟨-, -, left, -, -, -, -, -, -, -, rfl⟩ := insertDomain_eq_some taken
    exact once
  | saveDomain name pool =>
    obtain ⟨-, -, -, -, -, -, -, -, rfl⟩ := saveDomain_eq_some taken
    exact once
  | deleteDomain name =>
    obtain ⟨-, -, -, -, rfl⟩ := deleteDomain_eq_some taken
    exact once
  | insertTenant tenant admitted =>
    obtain ⟨-, left, -, -, rfl⟩ := insertTenant_eq_some taken
    exact once
  | saveTenant tenant hasReports admitted =>
    obtain ⟨-, -, -, -, -, -, rfl⟩ := saveTenant_eq_some taken
    exact once
  | deleteTenant name =>
    obtain ⟨-, rfl⟩ := deleteTenant_eq_some taken
    exact once
  | insertPool pool =>
    obtain ⟨left, -, rfl⟩ := insertPool_eq_some taken
    exact once
  | deletePool name =>
    obtain ⟨-, -, rfl⟩ := deletePool_eq_some taken
    exact once

theorem once_initial : Once State.initial.documents := by
  refine ⟨?_, ?_, ?_, ?_, ?_⟩ <;> exact fun _ here => absurd here List.not_mem_nil

/-- The addresses of a document, its primary address first. -/
def Document.addresses (document : Document) : List String := document.email :: document.aliases

theorem Once.nodup (once : Once documents) : (documents.rows.flatMap Document.addresses).Nodup := by
  rw [List.nodup_flatMap]
  constructor
  · intro document here
    refine List.nodup_cons.mpr ⟨fun member => ?_, once.distinct document here⟩
    exact once.apart document here document here _ member rfl
  · refine (documents.unique.of_map _).pairwise_of_forall_ne fun one here two there different => ?_
    intro address first second
    rcases List.mem_cons.mp first with rfl | first
    · rcases List.mem_cons.mp second with same | second
      · exact different (once.primary one here two there same)
      · exact once.apart two there one here _ second rfl
    · rcases List.mem_cons.mp second with rfl | second
      · exact once.apart one here two there _ first rfl
      · exact different (once.owned one here two there address first second)

/-- **An address exists once**: the primary addresses and aliases of all accounts, groups and lists, of
all tenants, are distinct. -/
theorem address_exists_once (reached : Reaches (Directory.step platform) anyStep State.initial s) :
    (s.documents.rows.flatMap Document.addresses).Nodup ∧
    (∀ document ∈ s.documents, ∀ other ∈ s.documents, document.email = other.email → document = other) ∧
    (∀ document ∈ s.documents, ∀ other ∈ s.documents, ∀ aliasEmail ∈ document.aliases,
      aliasEmail ≠ other.email) ∧
    ∀ document ∈ s.documents, ∀ other ∈ s.documents, ∀ aliasEmail ∈ document.aliases,
      aliasEmail ∈ other.aliases → document = other := by
  have once : Once s.documents :=
    reached.invariant (fun s => Once s.documents) once_initial fun once _ taken => once.step taken
  exact ⟨once.nodup, once.primary, once.apart, once.owned⟩

/-- The addresses of the small directory. -/
theorem address_exists_once_small :
    ∃ s, Reaches (Directory.step asciiPlatform) anyStep State.initial s ∧
      s.documents.rows.flatMap Document.addresses =
        ["team@a.io", "info@a.io", "ann@a.io", "sales@a.io", "all@a.io"] ∧
      (s.documents.rows.flatMap Document.addresses).Nodup := by
  obtain ⟨s, reached, documents, -⟩ := smallRun_ends
  exact ⟨s, reached, by rw [documents]; rfl, (address_exists_once reached).1⟩

end SuiteCloud.Mail.Directory
