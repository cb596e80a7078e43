/-
**When the comparison of a directory tells the truth.**

The report names what Suite Cloud and the cluster have; adoption lists what the cluster has. Both leave
out the accounts `admin` and `relay` of the cluster's own domain, and recognise them by their name alone:
a customer's `admin` or `relay` is left out too. An object without an address cannot be named.

### What is proved

* `tells_compare_iff` — **one comparison tells the truth exactly when** it was given every object of the
  cluster, but for infrastructure that Suite Cloud has not.
* `directory_told_iff` — **the report tells the truth, and adoption lists every object, exactly when** every
  account and group the cluster lists without an address, or under the name `admin` or `relay`, is
  infrastructure that Suite Cloud has not, and every list has an address.
* `customer_admin_untold` — **a customer's `admin` is told as missing**, and adoption leaves it out.
-/

import SuiteCloud.Library.Maps
import SuiteCloud.Library.Text
import SuiteCloud.Mail.Cluster.Reconcile.Model

namespace SuiteCloud.Mail.Cluster.Reconcile

open SuiteCloud.Library

/-! ### The truth about one kind of object -/

section Truth

variable {Object : Type} (has : List Object) (address : Object → Option String)
  (id : Object → String) (Infra : Object → Prop)

/-- **What a report says of one kind of object is true.** `ours` are the names and ids Suite Cloud has,
`has` the objects the cluster has. -/
structure Tells (objectType : ObjectType) (ours : List (String × Option String)) (report : Report) :
    Prop where
  /-- Missing is what Suite Cloud has and the cluster has not. -/
  missing : ∀ name, (objectType, name) ∈ report.missingOnStalwart ↔
    name ∈ ours.map Prod.fst ∧ ∀ object ∈ has, address object ≠ some name
  /-- A mismatch is what both have under different ids. -/
  mismatch : ∀ name ourId liveId, ⟨objectType, name, ourId, liveId⟩ ∈ report.idMismatch ↔
    (name, ourId) ∈ ours ∧ (∃ object ∈ has, address object = some name ∧ id object = liveId) ∧
      some liveId ≠ ourId
  /-- An orphan is an object of the cluster that is not infrastructure and that Suite Cloud has not, -/
  orphan : ∀ name, (objectType, name) ∈ report.orphansOnStalwart →
    name ∉ ours.map Prod.fst ∧ ∃ object ∈ has, address object = some name ∧ ¬ Infra object
  /-- and every such object is named. -/
  orphans : ∀ object ∈ has, ¬ Infra object →
    (∀ name, address object = some name → name ∉ ours.map Prod.fst) →
      ∃ name, address object = some name ∧ (objectType, name) ∈ report.orphansOnStalwart

end Truth

/-! ### One comparison -/

/-- What a report says of one kind of object, in terms of the two dictionaries compared. -/
structure Compared (objectType : ObjectType) (ours : Dict String (Option String))
    (live : Dict String String) (ignore : List String) (report : Report) : Prop where
  missing : ∀ name, (objectType, name) ∈ report.missingOnStalwart ↔
    name ∈ ours.keys ∧ name ∉ live.keys
  mismatch : ∀ name ourId liveId, ⟨objectType, name, ourId, liveId⟩ ∈ report.idMismatch ↔
    (name, ourId) ∈ ours ∧ live.get name = some liveId ∧ some liveId ≠ ourId
  orphan : ∀ name, (objectType, name) ∈ report.orphansOnStalwart ↔
    name ∈ live.keys ∧ name ∉ ours.keys ∧ name ∉ ignore

section Compare

variable {report : Report} {objectType kind : ObjectType} {ours : Dict String (Option String)}
  {live : Dict String String} {ignore : List String} {name : String}

theorem mem_missing_compare :
    (kind, name) ∈ (compare report objectType ours live ignore).missingOnStalwart ↔
      (kind, name) ∈ report.missingOnStalwart ∨
        (kind = objectType ∧ name ∈ ours.keys ∧ name ∉ live.keys) := by
  simp only [compare, List.mem_append, List.mem_filterMap]
  refine or_congr Iff.rfl ⟨?_, ?_⟩
  · rintro ⟨⟨key, ourId⟩, there, picked⟩
    split at picked
    · next absent =>
      cases picked
      exact ⟨rfl, List.mem_map_of_mem there, Dict.get_eq_none.mp (Option.isNone_iff_eq_none.mp absent)⟩
    · cases picked
  · rintro ⟨rfl, there, absent⟩
    obtain ⟨entry, member, rfl⟩ := List.mem_map.mp there
    refine ⟨entry, member, ?_⟩
    rw [if_pos (Option.isNone_iff_eq_none.mpr (Dict.get_eq_none.mpr absent))]

theorem mem_mismatch_compare {ourId : Option String} {liveId : String} :
    ⟨kind, name, ourId, liveId⟩ ∈ (compare report objectType ours live ignore).idMismatch ↔
      ⟨kind, name, ourId, liveId⟩ ∈ report.idMismatch ∨
        (kind = objectType ∧ (name, ourId) ∈ ours ∧ live.get name = some liveId ∧
          some liveId ≠ ourId) := by
  simp only [compare, List.mem_append, List.mem_filterMap]
  refine or_congr Iff.rfl ⟨?_, ?_⟩
  · rintro ⟨⟨key, id⟩, there, picked⟩
    split at picked
    · cases picked
    · next found =>
      split at picked
      · next different =>
        cases picked
        exact ⟨rfl, there, found, different⟩
      · cases picked
  · rintro ⟨rfl, there, found, different⟩
    refine ⟨(name, ourId), there, ?_⟩
    simp only [found]
    rw [if_pos different]

theorem mem_orphans_compare :
    (kind, name) ∈ (compare report objectType ours live ignore).orphansOnStalwart ↔
      (kind, name) ∈ report.orphansOnStalwart ∨
        (kind = objectType ∧ name ∈ live.keys ∧ name ∉ ours.keys ∧ name ∉ ignore) := by
  simp only [compare, List.mem_append, List.mem_filterMap]
  refine or_congr Iff.rfl ⟨?_, ?_⟩
  · rintro ⟨key, there, picked⟩
    split at picked
    · next unknown =>
      cases picked
      exact ⟨rfl, there, Dict.get_eq_none.mp (Option.isNone_iff_eq_none.mp unknown.1), unknown.2⟩
    · cases picked
  · rintro ⟨rfl, there, unknown, kept⟩
    refine ⟨name, there, ?_⟩
    rw [if_pos ⟨Option.isNone_iff_eq_none.mpr (Dict.get_eq_none.mpr unknown), kept⟩]

end Compare

section Iff

variable {Object : Type} {has : List Object} {address : Object → Option String}
  {id : Object → String} {Infra Kept : Object → Prop} {objectType : ObjectType}
  {ours : Dict String (Option String)} {live : Dict String String} {ignore : List String}
  {report : Report}

/-- The dictionary of the cluster holds the objects kept, by their address. -/
structure Holds (has : List Object) (address : Object → Option String) (id : Object → String)
    (Kept : Object → Prop) (live : Dict String String) : Prop where
  distinct : live.keys.Nodup
  entry : ∀ name liveId, (name, liveId) ∈ live ↔
    ∃ object ∈ has, Kept object ∧ address object = some name ∧ id object = liveId
  named : ∀ object ∈ has, Kept object → ∃ name, address object = some name

theorem Holds.mem_keys (holds : Holds has address id Kept live) {name : String} :
    name ∈ live.keys ↔ ∃ object ∈ has, Kept object ∧ address object = some name := by
  constructor
  · intro member
    obtain ⟨⟨key, liveId⟩, there, rfl⟩ := List.mem_map.mp member
    obtain ⟨object, here, kept, named, -⟩ := (holds.entry key liveId).mp there
    exact ⟨object, here, kept, named⟩
  · rintro ⟨object, here, kept, named⟩
    exact List.mem_map_of_mem ((holds.entry name (id object)).mpr ⟨object, here, kept, named, rfl⟩)

/-- **A comparison tells the truth exactly when** it was given every object of the cluster, but for
infrastructure that Suite Cloud has not. -/
theorem tells_compare_iff (compared : Compared objectType ours live ignore report)
    (holds : Holds has address id Kept live) (once : (has.filterMap address).Nodup)
    (ignored : ∀ object ∈ has, Kept object → ∀ name, address object = some name →
      (name ∈ ignore ↔ Infra object)) :
    Tells has address id Infra objectType ours report ↔
      ∀ object ∈ has, ¬ Kept object →
        Infra object ∧ ∀ name, address object = some name → name ∉ ours.keys := by
  -- an object that is not kept is not in the dictionary under its address
  have dropped : ∀ object ∈ has, ¬ Kept object → ∀ name, address object = some name →
      name ∉ live.keys := by
    intro object here lost name named member
    obtain ⟨other, there, kept, same⟩ := holds.mem_keys.mp member
    obtain rfl := eq_of_filterMap_nodup once here there named same
    exact lost kept
  constructor
  · intro tells object here lost
    have unrecorded : ∀ name, address object = some name → name ∉ ours.keys := by
      intro name named recorded
      have absent := (compared.missing name).mpr ⟨recorded, dropped object here lost name named⟩
      exact ((tells.missing name).mp absent).2 object here named
    refine ⟨?_, unrecorded⟩
    by_contra customer
    obtain ⟨name, named, orphan⟩ := tells.orphans object here customer unrecorded
    exact dropped object here lost name named ((compared.orphan name).mp orphan).1
  · intro only
    refine ⟨fun name => ?_, fun name ourId liveId => ?_, fun name orphan => ?_, ?_⟩
    · rw [compared.missing]
      refine and_congr_right fun recorded => ⟨fun absent object here named => ?_, fun none member => ?_⟩
      · by_cases kept : Kept object
        · exact absent (holds.mem_keys.mpr ⟨object, here, kept, named⟩)
        · exact (only object here kept).2 name named recorded
      · obtain ⟨object, here, -, named⟩ := holds.mem_keys.mp member
        exact none object here named
    · rw [compared.mismatch, Dict.get_eq_some holds.distinct, holds.entry]
      refine and_congr_right fun recorded => and_congr_left fun _ => ⟨?_, ?_⟩
      · rintro ⟨object, here, -, found⟩
        exact ⟨object, here, found⟩
      · rintro ⟨object, here, named, same⟩
        by_cases kept : Kept object
        · exact ⟨object, here, kept, named, same⟩
        · exact absurd (List.mem_map_of_mem recorded) ((only object here kept).2 name named)
    · obtain ⟨member, unknown, unignored⟩ := (compared.orphan name).mp orphan
      obtain ⟨object, here, kept, named⟩ := holds.mem_keys.mp member
      exact ⟨unknown, object, here, named, mt (ignored object here kept name named).mpr unignored⟩
    · intro object here customer unknown
      by_cases kept : Kept object
      · obtain ⟨name, named⟩ := holds.named object here kept
        refine ⟨name, named, (compared.orphan name).mpr ⟨?_, unknown name named, ?_⟩⟩
        · exact holds.mem_keys.mpr ⟨object, here, kept, named⟩
        · exact mt (ignored object here kept name named).mp customer
      · exact absurd (only object here kept).1 customer

end Iff

/-! ### The three comparisons -/

section Kinds

variable {directory : Directory} {cluster : StalwartCluster} {content : Content}

theorem compared_domains (directory : Directory) (cluster : StalwartCluster) (content : Content) :
    Compared .domain (Dict.ofList (directory.rows .mailDomain cluster.name))
    (liveDomains content) [cluster.defaultDomain] (directoryReport directory cluster content) where
  missing name := by simp [directoryReport, mem_missing_compare]
  mismatch name ourId liveId := by simp [directoryReport, mem_mismatch_compare]
  orphan name := by simp [directoryReport, mem_orphans_compare]

theorem compared_accounts (directory : Directory) (cluster : StalwartCluster) (content : Content) :
    Compared .account (oursAccounts directory cluster.name)
    (liveAccounts content) [] (directoryReport directory cluster content) where
  missing name := by simp [directoryReport, mem_missing_compare]
  mismatch name ourId liveId := by simp [directoryReport, mem_mismatch_compare]
  orphan name := by simp [directoryReport, mem_orphans_compare]

theorem compared_lists (directory : Directory) (cluster : StalwartCluster) (content : Content) :
    Compared .mailingList
    (Dict.ofList (directory.rows .mailingList cluster.name)) (liveLists content) []
    (directoryReport directory cluster content) where
  missing name := by simp [directoryReport, mem_missing_compare]
  mismatch name ourId liveId := by simp [directoryReport, mem_mismatch_compare]
  orphan name := by simp [directoryReport, mem_orphans_compare]

/-! The rows of a doctype have distinct names, and so do accounts and groups together. -/

theorem rows_map (doctype : Doctype) (name : String) :
    (directory.rows doctype name).map Prod.fst =
      (directory.docs.filter fun doc => doc.doctype = doctype ∧ doc.cluster = name).map Doc.name := by
  rw [Directory.rows, List.map_map]
  rfl

theorem nodup_rows (doctype : Doctype) (name : String) :
    ((directory.rows doctype name).map Prod.fst).Nodup := by
  rw [rows_map]
  have narrower : ∀ wider : Doc → Bool, (∀ doc, doc.doctype = doctype → wider doc = true) →
      (directory.docs.filter fun doc => doc.doctype = doctype ∧ doc.cluster = name).Sublist
        (directory.docs.filter wider) := by
    intro wider covers
    refine List.monotone_filter_right directory.docs fun doc picked => ?_
    exact covers doc (of_decide_eq_true picked).1
  by_cases domain : doctype = .mailDomain
  · refine directory.domain_once.sublist ((narrower _ fun doc same => ?_).map _)
    simp [same, domain]
  · refine directory.address_once.sublist ((narrower _ fun doc same => ?_).map _)
    simp [same, domain]

theorem nodup_accounts (name : String) :
    ((directory.rows .mailAccount name ++ directory.rows .mailGroup name).map Prod.fst).Nodup := by
  rw [List.map_append]
  refine (nodup_rows _ _).append (nodup_rows _ _) fun email account group => ?_
  rw [rows_map] at account group
  obtain ⟨first, here, rfl⟩ := List.mem_map.mp account
  obtain ⟨second, there, same⟩ := List.mem_map.mp group
  obtain ⟨here, isAccount⟩ := List.mem_filter.mp here
  obtain ⟨there, isGroup⟩ := List.mem_filter.mp there
  have accountType := (of_decide_eq_true isAccount).1
  have groupType := (of_decide_eq_true isGroup).1
  have equal := List.inj_on_of_nodup_map directory.address_once
    (List.mem_filter.mpr ⟨there, by simp [groupType]⟩)
    (List.mem_filter.mpr ⟨here, by simp [accountType]⟩) same
  rw [equal, accountType] at groupType
  cases groupType

theorem oursAccounts_eq (name : String) : oursAccounts directory name =
    directory.rows .mailAccount name ++ directory.rows .mailGroup name := by
  rw [oursAccounts, Dict.ofList_of_nodup (nodup_rows _ _), Dict.ofList_of_nodup (nodup_rows _ _)]
  exact Dict.update_of_nodup _ (nodup_accounts name)

/-! What the dictionaries of the cluster hold. -/

/-- The address of an object, with the cluster's own domains. -/
def Content.address (content : Content) (live : Live) : Option String :=
  addressOf (domainNames content.domains) live

theorem address_of_truthy (content : Content) {live : Live} {email : String}
    (there : truthy live.emailAddress = some email) :
    content.address live = some email := by
  rw [Content.address, addressOf, there]

theorem holds_of_pick {Object : Type} {has : List Object} {address : Object → Option String}
    (id : Object → String) {pick : Object → Option String}
    (agrees : ∀ object name, pick object = some name → address object = some name)
    (once : (has.filterMap address).Nodup) :
    Holds has address id (fun object => (pick object).isSome)
      (Dict.ofList (has.filterMap fun object => (pick object).map (·, id object))) := by
  have keys : (has.filterMap fun object => (pick object).map (·, id object)).map Prod.fst =
      has.filterMap pick := by
    rw [List.map_filterMap]
    congr 1
    funext object
    cases pick object <;> rfl
  have distinct : ((has.filterMap fun object => (pick object).map (·, id object)).map
      Prod.fst).Nodup := by
    rw [keys]
    exact once.sublist (filterMap_sublist agrees has)
  rw [Dict.ofList_of_nodup distinct]
  refine ⟨distinct, fun name liveId => ?_, fun object _ kept => ?_⟩
  · rw [List.mem_filterMap]
    refine exists_congr fun object => and_congr_right fun _ => ?_
    cases picked : pick object with
    | none => simp
    | some found => simp [agrees object found picked]
  · obtain ⟨name, picked⟩ := Option.isSome_iff_exists.mp kept
    exact ⟨name, agrees object name picked⟩

/-- **Infrastructure**: the users `admin` and `relay` of the cluster's own domain. -/
def Infra (cluster : StalwartCluster) (content : Content) (live : Principal) : Prop :=
  live.kind = .user ∧ inInfraAccounts live.name ∧
    domainOf (domainNames content.domains) live.domainId = some cluster.defaultDomain

/-- What the comparison of accounts keeps of an account or group. -/
def keptAccount (live : Principal) : Option String :=
  if inInfraAccounts live.name then none else truthy live.emailAddress

theorem liveAccounts_eq : liveAccounts content =
    Dict.ofList (content.principals.filterMap fun live => (keptAccount live).map (·, live.id)) := by
  unfold liveAccounts keptAccount
  congr 2
  funext live
  split <;> rfl

theorem holds_accounts (content : Content) :
    Holds content.principals (fun live => content.address live.toLive) (fun live => live.id)
      (fun live => (keptAccount live).isSome) (liveAccounts content) := by
  have agrees : ∀ live name, keptAccount live = some name →
      content.address live.toLive = some name := by
    intro live name kept
    unfold keptAccount at kept
    split at kept
    · cases kept
    · exact address_of_truthy content kept
  rw [liveAccounts_eq]
  exact holds_of_pick (fun live : Principal => live.id) agrees content.principal_once

theorem tells_domains (directory : Directory) (cluster : StalwartCluster) (content : Content) :
    Tells content.domains (fun live => some live.name) LiveDomain.id
      (fun live => live.name = cluster.defaultDomain) .domain
      (directory.rows .mailDomain cluster.name) (directoryReport directory cluster content) := by
  have compared := compared_domains directory cluster content
  rw [Dict.ofList_of_nodup (nodup_rows _ _)] at compared
  have once : (content.domains.filterMap fun live => some live.name).Nodup := by
    rw [List.filterMap_eq_map']
    exact content.domain_once
  have holds := holds_of_pick LiveDomain.id (fun _ _ same => same) once
  have all : liveDomains content = Dict.ofList (content.domains.filterMap fun live =>
      (some live.name).map (·, live.id)) := by
    rw [liveDomains, ← List.filterMap_eq_map']
    rfl
  rw [← all] at holds
  refine (tells_compare_iff compared holds once fun live _ _ name named => ?_).mpr ?_
  · rw [List.mem_singleton, ← Option.some.inj named]
  · exact fun live _ lost => absurd rfl lost

/-- **The accounts and groups are told truly exactly when** those left out are infrastructure that Suite
Cloud has not. -/
theorem tells_accounts_iff (directory : Directory) (cluster : StalwartCluster) (content : Content) :
    Tells content.principals (fun live => content.address live.toLive) (fun live => live.id)
        (Infra cluster content) .account
        (directory.rows .mailAccount cluster.name ++ directory.rows .mailGroup cluster.name)
        (directoryReport directory cluster content) ↔
      ∀ live ∈ content.principals, keptAccount live = none → Infra cluster content live ∧
        ∀ name, content.address live.toLive = some name →
          name ∉ (directory.rows .mailAccount cluster.name ++
            directory.rows .mailGroup cluster.name).map Prod.fst := by
  have compared := compared_accounts directory cluster content
  rw [oursAccounts_eq] at compared
  have holds := holds_accounts content
  rw [tells_compare_iff compared holds content.principal_once]
  · simp only [Option.isSome_iff_ne_none, ne_eq, not_not]
    rfl
  · intro live _ kept name _
    refine iff_of_false List.not_mem_nil fun infra => ?_
    unfold keptAccount at kept
    rw [if_pos infra.2.1] at kept
    cases kept

theorem tells_lists_iff (directory : Directory) (cluster : StalwartCluster) (content : Content) :
    Tells content.lists (fun live => content.address live.toLive) (fun live => live.id)
        (fun _ => False) .mailingList (directory.rows .mailingList cluster.name)
        (directoryReport directory cluster content) ↔
      ∀ live ∈ content.lists, truthy live.emailAddress ≠ none := by
  have compared := compared_lists directory cluster content
  rw [Dict.ofList_of_nodup (nodup_rows _ _)] at compared
  have holds := holds_of_pick (fun live : LiveList => live.id)
    (fun live name (kept : truthy live.emailAddress = some name) =>
      address_of_truthy content kept) content.list_once
  rw [tells_compare_iff compared holds content.list_once]
  · refine forall₂_congr fun live _ => ?_
    cases truthy live.emailAddress <;> simp
  · exact fun live _ _ name _ => iff_of_false List.not_mem_nil id

end Kinds

/-! ### Adoption -/

/-- A name is adopted, or skipped with a reason. -/
def AdoptionReport.Lists (report : AdoptionReport) (doctype : Doctype) (name : String) : Prop :=
  (doctype, name) ∈ report.adopted ∨ ∃ reason, (doctype, name, reason) ∈ report.skipped

section Adopt

variable {lower : String → String} {insert : Directory → Form → Except String Directory}
  {s : Adoption} {doctype other : Doctype} {name listed : String} {form : Form}

theorem lists_adopt {report : AdoptionReport} (here : report.Lists other listed) :
    (report.adopt doctype name).Lists other listed :=
  here.imp_left fun member => List.mem_append_left _ member

theorem lists_skip {report : AdoptionReport} {reason : String} (here : report.Lists other listed) :
    (report.skip doctype name reason).Lists other listed :=
  here.imp_right fun ⟨why, member⟩ => ⟨why, List.mem_append_left _ member⟩

theorem lists_skip_self {report : AdoptionReport} {reason : String} :
    (report.skip doctype name reason).Lists doctype name :=
  .inr ⟨reason, List.mem_append_right _ (List.mem_singleton_self _)⟩

theorem lists_adoptObject_self :
    (adoptObject insert s doctype name form).report.Lists doctype name := by
  unfold adoptObject insertForm
  split
  · exact lists_skip_self
  · split
    · exact .inl (List.mem_append_right _ (List.mem_singleton_self _))
    · exact lists_skip_self

theorem lists_adoptObject (here : s.report.Lists other listed) :
    (adoptObject insert s doctype name form).report.Lists other listed := by
  unfold adoptObject insertForm
  split
  · exact lists_skip here
  · split
    · exact lists_adopt here
    · exact lists_skip here

/-- One turn of a loop that adopts the objects it has a name for. -/
def adoptEach {Object : Type} (insert : Directory → Form → Except String Directory)
    (doctype : Doctype) (nameOf : Object → Option String) (formOf : String → Object → Form)
    (s : Adoption) (object : Object) : Adoption :=
  match nameOf object with
  | none => s
  | some name => adoptObject insert s doctype name (formOf name object)

section Loop

variable {Object : Type} {nameOf : Object → Option String} {formOf : String → Object → Form}

theorem lists_foldl (objects : List Object) (here : s.report.Lists other listed) :
    (objects.foldl (adoptEach insert doctype nameOf formOf) s).report.Lists other listed := by
  induction objects generalizing s with
  | nil => exact here
  | cons first rest ih =>
    refine ih ?_
    delta adoptEach
    split
    · exact here
    · exact lists_adoptObject here

theorem lists_foldl_named {objects : List Object} {object : Object} (here : object ∈ objects)
    (named : nameOf object = some name) :
    (objects.foldl (adoptEach insert doctype nameOf formOf) s).report.Lists doctype name := by
  induction objects generalizing s with
  | nil => cases here
  | cons first rest ih =>
    rcases List.mem_cons.mp here with rfl | later
    · refine lists_foldl rest ?_
      delta adoptEach
      rw [named]
      exact lists_adoptObject_self
    · exact ih later

end Loop

/-! The four loops are such loops. -/

theorem adoptDomains_eq (tenant : String) (cluster : StalwartCluster) (domains : List LiveDomain) :
    adoptDomains insert tenant cluster domains s = domains.foldl (adoptEach insert .mailDomain
      (fun live => if live.name = cluster.defaultDomain then none else some live.name)
      fun _ live => domainForm tenant live) s := by
  unfold adoptDomains adoptEach
  congr 1
  funext s live
  by_cases own : live.name = cluster.defaultDomain
  · simp only [if_pos own]
  · simp only [if_neg own]

theorem adoptGroups_eq (tenant : String) (domains : Dict String String) (groups : List Principal) :
    adoptGroups lower insert tenant domains groups s = groups.foldl (adoptEach insert .mailGroup
      (fun live => address lower domains live.toLive) (groupForm lower tenant domains)) s := by
  rfl

theorem adoptAccounts_eq (tenant : String) (domains groups : Dict String String)
    (disabledRole : Option String) (users : List Principal) :
    adoptAccounts lower insert tenant domains groups disabledRole users s =
      users.foldl (adoptEach insert .mailAccount
        (fun live => if inInfraAccounts live.name then none else address lower domains live.toLive)
        (accountForm lower tenant domains groups disabledRole)) s := by
  unfold adoptAccounts adoptEach
  congr 1
  funext s live
  by_cases named : inInfraAccounts live.name = true
  · simp only [if_pos named]
  · cases found : address lower domains live.toLive with
    | none => simp only [if_neg named, found]
    | some email => simp only [if_neg named, found]

theorem adoptMailingLists_eq (tenant : String) (domains : Dict String String)
    (lists : List LiveList) :
    adoptMailingLists lower insert tenant domains lists s = lists.foldl (adoptEach insert .mailingList
      (fun live => address lower domains live.toLive) (listForm lower tenant domains)) s := by
  rfl

/-- **What adoption lists**: the domains but for the cluster's own, the groups and lists with an address,
and the users with one that are not named as infrastructure. -/
theorem lists_adoptDirectory {directory : Directory} {tenant : String} {cluster : StalwartCluster}
    {content : Content} {report : AdoptionReport}
    (done : adoptDirectory lower insert directory tenant cluster content = some report) :
    (∀ live ∈ content.domains, live.name ≠ cluster.defaultDomain →
        report.Lists .mailDomain live.name) ∧
      (∀ live ∈ content.principals, live.kind = .group → ∀ name,
        content.address live.toLive = some name → report.Lists .mailGroup (lower name)) ∧
      (∀ live ∈ content.principals, live.kind = .user → inInfraAccounts live.name = false →
        ∀ name, content.address live.toLive = some name → report.Lists .mailAccount (lower name)) ∧
      ∀ live ∈ content.lists, ∀ name, content.address live.toLive = some name →
        report.Lists .mailingList (lower name) := by
  unfold adoptDirectory at done
  split at done
  · cases done
  · obtain rfl := Option.some.inj done
    rw [adoptDomains_eq, adoptGroups_eq, adoptAccounts_eq, adoptMailingLists_eq]
    have addressed : ∀ {live : Live} {name : String}, content.address live = some name →
        address lower (domainNames content.domains) live = some (lower name) := by
      intro live name named
      exact congrArg (Option.map lower) named
    refine ⟨fun live here other => ?_, fun live here group name named => ?_,
      fun live here user customer name named => ?_, fun live here name named => ?_⟩
    · exact lists_foldl _ (lists_foldl _ (lists_foldl _ (lists_foldl_named here (if_neg other))))
    · refine lists_foldl _ (lists_foldl _ (lists_foldl_named ?_ (addressed named)))
      exact List.mem_filter.mpr ⟨here, decide_eq_true group⟩
    · refine lists_foldl _ (lists_foldl_named (List.mem_filter.mpr ⟨here, decide_eq_true user⟩) ?_)
      rw [customer]
      exact addressed named
    · exact lists_foldl_named here (addressed named)

end Adopt

/-! ### The whole -/

/-- The doctype of a user or group. -/
def Kind.doctype : Kind → Doctype
  | .user => .mailAccount
  | .group => .mailGroup

/-- **The comparison tells the truth**: of domains, of accounts and groups, and of lists; and where
adoption returns, every domain, user, group and list that is not infrastructure is adopted or skipped
with a reason. -/
structure Told (lower : String → String) (insert : Directory → Form → Except String Directory)
    (directory : Directory) (tenant : String) (cluster : StalwartCluster) (content : Content) :
    Prop where
  domains : Tells content.domains (fun live => some live.name) LiveDomain.id
    (fun live => live.name = cluster.defaultDomain) .domain
    (directory.rows .mailDomain cluster.name) (directoryReport directory cluster content)
  accounts : Tells content.principals (fun live => content.address live.toLive) (fun live => live.id)
    (Infra cluster content) .account
    (directory.rows .mailAccount cluster.name ++ directory.rows .mailGroup cluster.name)
    (directoryReport directory cluster content)
  lists : Tells content.lists (fun live => content.address live.toLive) (fun live => live.id)
    (fun _ => False) .mailingList (directory.rows .mailingList cluster.name)
    (directoryReport directory cluster content)
  adopted : ∀ report, adoptDirectory lower insert directory tenant cluster content = some report →
    (∀ live ∈ content.domains, live.name ≠ cluster.defaultDomain →
        report.Lists .mailDomain live.name) ∧
      (∀ live ∈ content.principals, ¬ Infra cluster content live →
        ∃ name, content.address live.toLive = some name ∧
          report.Lists live.kind.doctype (lower name)) ∧
      ∀ live ∈ content.lists, ∃ name, content.address live.toLive = some name ∧
        report.Lists .mailingList (lower name)

/-- **Every object can be named, and only infrastructure is named as such**: an account or group that the
cluster lists without an address, or under the name `admin` or `relay`, is infrastructure whose address
no Mail Account or Mail Group has; and every list has an address. -/
structure Nameable (directory : Directory) (cluster : StalwartCluster) (content : Content) : Prop where
  accounts : ∀ live ∈ content.principals,
    truthy live.emailAddress = none ∨ inInfraAccounts live.name = true →
      Infra cluster content live ∧ ∀ name, content.address live.toLive = some name →
        name ∉ (directory.rows .mailAccount cluster.name ++
          directory.rows .mailGroup cluster.name).map Prod.fst
  lists : ∀ live ∈ content.lists, truthy live.emailAddress ≠ none

theorem keptAccount_eq_none {live : Principal} : keptAccount live = none ↔
    truthy live.emailAddress = none ∨ inInfraAccounts live.name = true := by
  unfold keptAccount
  by_cases named : inInfraAccounts live.name = true
  · simp [named]
  · simp [named]

/-- **The report tells the truth and adoption leaves nothing out, exactly when** every object can be named
and only infrastructure is named as such. -/
theorem directory_told_iff (lower : String → String)
    (insert : Directory → Form → Except String Directory) (directory : Directory) (tenant : String)
    (cluster : StalwartCluster) (content : Content) :
    Told lower insert directory tenant cluster content ↔ Nameable directory cluster content := by
  constructor
  · intro told
    refine ⟨fun live here lost => ?_, (tells_lists_iff directory cluster content).mp told.lists⟩
    exact (tells_accounts_iff directory cluster content).mp told.accounts live here
      (keptAccount_eq_none.mpr lost)
  · intro nameable
    refine ⟨tells_domains directory cluster content, ?_,
      (tells_lists_iff directory cluster content).mpr nameable.lists, fun report done => ?_⟩
    · refine (tells_accounts_iff directory cluster content).mpr fun live here lost => ?_
      exact nameable.accounts live here (keptAccount_eq_none.mp lost)
    · obtain ⟨domains, groups, users, lists⟩ := lists_adoptDirectory done
      refine ⟨domains, fun live here customer => ?_, fun live here => ?_⟩
      · have kept : ¬ (truthy live.emailAddress = none ∨ inInfraAccounts live.name = true) :=
          fun lost => customer (nameable.accounts live here lost).1
        obtain ⟨there, unnamed⟩ := not_or.mp kept
        obtain ⟨email, there⟩ := Option.ne_none_iff_exists'.mp there
        have named := address_of_truthy content there
        refine ⟨email, named, ?_⟩
        cases kind : live.kind with
        | user => exact users live here kind (Bool.eq_false_iff.mpr unnamed) email named
        | group => exact groups live here kind email named
      · obtain ⟨email, there⟩ := Option.ne_none_iff_exists'.mp (nameable.lists live here)
        have named := address_of_truthy content there
        exact ⟨email, named, lists live here email named⟩

/-! ### A customer's `admin` -/

namespace Example

def cluster : StalwartCluster := ⟨"blr", "blr.frappemail.com"⟩

def directory : Directory where
  tenants := [("acme", some "blr")]
  docs := [⟨.mailDomain, "acme.com", "acme", "blr", some "b"⟩,
    ⟨.mailAccount, "admin@acme.com", "acme", "blr", some "c"⟩]
  domain_once := by decide
  address_once := by decide

def admin : Principal where
  id := "c"
  name := some "admin"
  domainId := some "b"
  emailAddress := some "admin@acme.com"
  description := none
  aliases := []
  kind := .user
  locale := none
  timeZone := none
  memberGroupIds := []
  disabledPermissions := []
  quotas := []
  customRoles := none

def content : Content where
  domains := [⟨"a", "blr.frappemail.com", none, true, none, none, false⟩,
    ⟨"b", "acme.com", none, true, none, none, false⟩]
  principals := [admin]
  lists := []
  disabledRole := none
  domain_once := by decide
  principal_once := by decide
  list_once := by decide

end Example

open Example in
/-- **The account `admin` of a customer's domain**, which Suite Cloud and the cluster both have under one
id: the report tells it as missing on the cluster, and adoption does not list it. No insert is made. -/
theorem customer_admin_untold :
    (.account, "admin@acme.com") ∈ (directoryReport directory cluster content).missingOnStalwart ∧
      (∀ insert, (adoptDirectory asciiLower insert directory "acme" cluster content).map
        (fun report => (report.adopted, report.skipped)) =
          some ([], [(.mailDomain, "acme.com", "already exists")])) ∧
      ∀ insert, ¬ Told asciiLower insert directory "acme" cluster content := by
  have missing : (ObjectType.account, "admin@acme.com") ∈
      (directoryReport directory cluster content).missingOnStalwart := by decide
  refine ⟨missing, fun insert => rfl, fun insert told => ?_⟩
  have address : content.address admin.toLive = some "admin@acme.com" := by decide
  exact ((told.accounts.missing _).mp missing).2 admin List.mem_cons_self address

end SuiteCloud.Mail.Cluster.Reconcile
