/-
**A TXT value among the provider's renderings.**

`find_dns_record`, `ensure_dns_record` and `delete_dns_record` of `suite_cloud/dns/provider.py`, of a
place that holds TXT records. A provider lists a text bare, in one pair of quotes, or cut into quoted
strings of at most 255 characters with a space between them.

* `LooksLike`, `normalizeValue_eq_iff` — two texts that are one value to the provider's comparison: the
  same, but for case, after white space, quotes and dots are taken off.
* `normalizeValue_own_iff` — **which renderings** of a text are found under it: those in one string, with
  no white space at the text's ends.
* `identifies_iff` — **a wanted value is told from the others**, exactly when every rendering of it is one
  of these and no other text looks like it.
-/

import Mathlib.Data.List.Find
import SuiteCloud.Dns.Owners
import SuiteCloud.Dns.Resolver

namespace SuiteCloud.Dns

open SuiteCloud.Library

variable {site : Site} {place : Place} {remote : List RemoteRecord} {row : Row} {wanted fqdn : String}

/-! ## Texts the comparison takes for one -/

/-- What `normalize_value` comes down to, before it lowers it: the text without the white space around it,
without the quotes around that, and without the dots after that. -/
def IsCore (text core : String) : Prop :=
  ∃ bare unquoted : String, Strips isSpace text bare ∧ Strips (· == '"') bare unquoted ∧
    RStrips (· == '.') unquoted core

/-- The same, but for case, white space and quotes around them, and dots at their ends. -/
def LooksLike (site : Site) (text other : String) : Prop :=
  ∃ core core' : String, IsCore text core ∧ IsCore other core' ∧ site.lower core = site.lower core'

theorem isCore_iff {text core : String} :
    IsCore text core ↔ rstripOf (· == '.') (stripOf (· == '"') (strip text)) = core := by
  constructor
  · rintro ⟨bare, unquoted, first, second, third⟩
    have first : strip text = bare := stripOf_eq_iff.mpr first
    rw [first, stripOf_eq_iff.mpr second]
    exact rstripOf_eq_iff.mpr third
  · intro same
    exact ⟨_, _, strips _ _, strips _ _, rstripOf_eq_iff.mp same⟩

theorem normalizeValue_eq_iff {text other : String} :
    normalizeValue site (some text) = normalizeValue site (some other) ↔ LooksLike site text other := by
  constructor
  · intro same
    exact ⟨_, _, isCore_iff.mpr rfl, isCore_iff.mpr rfl, same⟩
  · rintro ⟨core, core', left, right, same⟩
    rw [normalizeValue, normalizeValue, Option.getD_some, Option.getD_some, isCore_iff.mp left,
      isCore_iff.mp right, same]

/-! ## Renderings -/

/-- How a provider lists the text of a TXT record. -/
inductive Rendering
  | bare (text : String)
  | quoted (text : String)
  | cut (first : String) (rest : List String) (short : ∀ piece ∈ first :: rest, piece.length ≤ 255)

namespace Rendering

def text : Rendering → String
  | bare text => text
  | quoted text => text
  | cut first rest _ => String.ofList (first.toList ++ rest.flatMap String.toList)

def content : Rendering → String
  | bare text => text
  | quoted text => quote text
  | cut first rest _ =>
      String.ofList ((quote first).toList ++ rest.flatMap fun piece => ' ' :: (quote piece).toList)

/-- In one string, with no white space at the ends of a text in quotes. -/
def InOneString : Rendering → Prop
  | bare _ => True
  | quoted text => strip text = text
  | cut first rest _ => rest = [] ∧ strip first = first

end Rendering

/-- `str.lower` leaves the white space of a text. -/
def KeepsSpaces (lower : String → String) : Prop :=
  ∀ text, (lower text).toList.countP isSpace = text.toList.countP isSpace

theorem countP_normalizeValue (keeps : KeepsSpaces site.lower) (text : String) :
    (normalizeValue site (some text)).toList.countP isSpace = (strip text).toList.countP isSpace := by
  have dots : ∀ c : Char, (c == '.') = true → isSpace c = false := by
    intro c same
    obtain rfl := eq_of_beq same
    decide
  have quotes : ∀ c : Char, (c == '"') = true → isSpace c = false := by
    intro c same
    obtain rfl := eq_of_beq same
    decide
  rw [normalizeValue, Option.getD_some, keeps, countP_rstripOf dots, countP_stripOf quotes]

theorem normalizeValue_quote {text : String} (bare : strip text = text) :
    normalizeValue site (some (quote text)) = normalizeValue site (some text) := by
  rw [normalizeValue, normalizeValue, Option.getD_some, Option.getD_some, strip_quote, bare, quote,
    stripOf_between rfl rfl]

theorem countP_quote (text : String) : (quote text).toList.countP isSpace = text.toList.countP isSpace := by
  rw [quote, String.toList_ofList, List.countP_append, List.countP_cons_of_neg (by decide)]
  rfl

theorem normalizeValue_quote_iff (keeps : KeepsSpaces site.lower) {text : String} :
    normalizeValue site (some (quote text)) = normalizeValue site (some text) ↔ strip text = text := by
  refine ⟨fun same => ?_, normalizeValue_quote⟩
  by_contra spaces
  have more := countP_stripOf_lt spaces
  have counts := congrArg (fun text => text.toList.countP isSpace) same
  simp only [countP_normalizeValue keeps, strip_quote, countP_quote] at counts
  exact absurd more (by rw [counts]; exact lt_irrefl _)

theorem countP_strings (rest : List String) :
    (rest.flatMap fun piece => ' ' :: (quote piece).toList).countP isSpace
      = (rest.flatMap String.toList).countP isSpace + rest.length := by
  induction rest with
  | nil => rfl
  | cons piece rest ih =>
    rw [List.flatMap_cons, List.flatMap_cons, List.countP_append, List.countP_append, ih,
      List.countP_cons_of_pos (by decide), countP_quote, List.length_cons]
    omega

theorem strip_strings {first : String} {rest : List String} (some : rest ≠ []) :
    strip (String.ofList ((quote first).toList ++ rest.flatMap fun piece => ' ' :: (quote piece).toList))
      = String.ofList ((quote first).toList ++ rest.flatMap fun piece => ' ' :: (quote piece).toList) := by
  refine strip_eq_self ?_ ?_
  · intro c begins
    rw [String.toList_ofList, quote, String.toList_ofList, List.cons_append, List.cons_append,
      List.head?_cons] at begins
    obtain rfl := Option.some.inj begins
    decide
  · intro c ends
    obtain ⟨before, last, rfl⟩ := List.eq_nil_or_concat rest |>.resolve_left some
    rw [String.toList_ofList, List.concat_eq_append, List.flatMap_append, List.flatMap_singleton, quote,
      quote, String.toList_ofList, String.toList_ofList, ← List.cons_append, ← List.append_assoc,
      ← List.append_assoc, List.getLast?_concat] at ends
    obtain rfl := Option.some.inj ends
    decide

theorem normalizeValue_own_iff (keeps : KeepsSpaces site.lower) (rendering : Rendering) :
    normalizeValue site (some rendering.content) = normalizeValue site (some rendering.text)
      ↔ rendering.InOneString := by
  cases rendering with
  | bare text => exact iff_of_true rfl trivial
  | quoted text => exact normalizeValue_quote_iff keeps
  | cut first rest short =>
    by_cases one : rest = []
    · subst one
      simp only [Rendering.content, Rendering.text, Rendering.InOneString, List.flatMap_nil, List.append_nil,
        String.ofList_toList, true_and]
      exact normalizeValue_quote_iff keeps
    · refine iff_of_false (fun same => ?_) fun single => one single.1
      have counts := congrArg (fun text => text.toList.countP isSpace) same
      simp only [countP_normalizeValue keeps, Rendering.content, strip_strings one, String.toList_ofList,
        List.countP_append, countP_quote, countP_strings] at counts
      have most : (strip (Rendering.cut first rest short).text).toList.countP isSpace
          ≤ (Rendering.cut first rest short).text.toList.countP isSpace := countP_stripOf_le
      have whole : (Rendering.cut first rest short).text.toList.countP isSpace
          = first.toList.countP isSpace + (rest.flatMap String.toList).countP isSpace := by
        rw [Rendering.text, String.toList_ofList, List.countP_append]
      have pieces := List.length_pos_iff.mpr one
      omega

theorem normalizeRecordValue_own {rendering : Rendering} (one : rendering.InOneString) :
    normalizeRecordValue site .txt rendering.content fqdn
      = normalizeRecordValue site .txt rendering.text fqdn := by
  cases rendering with
  | bare text => rfl
  | quoted text => exact normalizeRecordValue_quoted one
  | cut first rest short =>
    obtain ⟨rfl, bare⟩ := one
    simp only [Rendering.content, Rendering.text, List.flatMap_nil, List.append_nil, String.ofList_toList]
    exact normalizeRecordValue_quoted bare

/-! ## A place of TXT records -/

/-- A TXT record the provider holds. -/
structure Held where
  rendering : Rendering
  ttl : Option ℕ
  priority : ℕ

def Held.text (held : Held) : String := held.rendering.text

/-- The record a row's push creates, as the provider renders it. -/
def Row.held (row : Row) (own : Rendering) : Held := ⟨own, some row.ttl, row.priority⟩

/-- The record, as Lexicon lists it. -/
def Held.record (place : Place) (held : Held) : RemoteRecord :=
  ⟨place, some held.rendering.content, held.ttl, held.priority⟩

/-- **The wanted value is told from the others**: of what the place holds, and of the wanted value's own
record where `ensure_dns_record` creates it. -/
structure Identifies (site : Site) (fqdn : String) (remote : List RemoteRecord) (row : Row) (held : List Held)
    (own : Rendering) : Prop where
  finds : ∀ record ∈ row.held own :: held,
    hasValue site row.value (record.record row.place) = true ↔ record.text = row.value
  agrees : ∀ record ∈ row.held own :: held, hasValue site row.value (record.record row.place) = true ↔
    normalizeRecordValue site .txt record.rendering.content fqdn
      = normalizeRecordValue site .txt row.value fqdn
  /-- `find_dns_record` returns a record of the wanted value, if there is one. -/
  found : findDnsRecord site remote row.place row.value
    = (held.find? fun record => record.text = row.value).map (Held.record row.place)
  /-- `ensure_dns_record` creates one record at most, and called again none. -/
  once : ∃ after, ensureDnsRecord site remote row = some after ∧
    ensureDnsRecord site after row = some after ∧
    ((after = remote ∧ ∃ record ∈ held, record.text = row.value) ∨
      readDnsRecords after row.place = ((held.filter fun record : Held => record.text ≠ row.value)
        ++ [row.held own]).map (Held.record row.place))
  /-- `delete_dns_record` leaves the records of other values, and of other places. -/
  deletes : readDnsRecords (deleteDnsRecord site remote row.place row.value) row.place
      = (held.filter fun record => record.text ≠ row.value).map (Held.record row.place) ∧
    ∀ record ∈ remote, record.place ≠ row.place → record ∈ deleteDnsRecord site remote row.place row.value

/-- **What it takes**: every rendering of the wanted value is in one string, and no other text looks like
it, neither to the provider's comparison nor to the resolver's. -/
structure IsApart (site : Site) (fqdn : String) (held : List Held) (wanted : String) (own : Rendering) :
    Prop where
  same : ∀ rendering ∈ own :: held.map Held.rendering, rendering.text = wanted → rendering.InOneString
  others : ∀ rendering ∈ own :: held.map Held.rendering, rendering.text ≠ wanted →
    ¬ LooksLike site rendering.content wanted ∧
      normalizeRecordValue site .txt rendering.content fqdn ≠ normalizeRecordValue site .txt wanted fqdn

section Place

variable {held : List Held} {own : Rendering}

theorem hasValue_held (record : Held) : hasValue site wanted (record.record place) = true ↔
    normalizeValue site (some record.rendering.content) = normalizeValue site (some wanted) :=
  decide_eq_true_iff

theorem hasValue_of_isApart (keeps : KeepsSpaces site.lower) (apart : IsApart site fqdn held wanted own)
    {record : Held} (member : record ∈ row.held own :: held) :
    hasValue site wanted (record.record place) = true ↔ record.text = wanted := by
  have among : record.rendering ∈ own :: held.map Held.rendering :=
    List.mem_map_of_mem (f := Held.rendering) member
  rw [hasValue_held]
  by_cases same : record.text = wanted
  · have one := (normalizeValue_own_iff keeps record.rendering).mpr (apart.same _ among same)
    exact iff_of_true (one.trans (congrArg (normalizeValue site ∘ some) same)) same
  · exact iff_of_false (fun found => (apart.others _ among same).1 (normalizeValue_eq_iff.mp found)) same

theorem readDnsRecords_deleteDnsRecord (listing : readDnsRecords remote place = held.map (Held.record place))
    (finds : ∀ record ∈ held, hasValue site wanted (record.record place) = true ↔ record.text = wanted) :
    readDnsRecords (deleteDnsRecord site remote place wanted) place
      = (held.filter fun record => record.text ≠ wanted).map (Held.record place) := by
  have split : readDnsRecords (deleteDnsRecord site remote place wanted) place
      = (readDnsRecords remote place).filter fun record => ¬ hasValue site wanted record = true := by
    rw [deleteDnsRecord_eq_filter, readDnsRecords, readDnsRecords, List.filter_filter, List.filter_filter]
    refine List.filter_congr fun record _ => ?_
    by_cases here : record.place = place
    · simp [here]
    · simp [here]
  rw [split, listing, List.filter_map]
  refine congrArg _ (List.filter_congr fun record member => ?_)
  exact decide_eq_decide.mpr (not_congr (finds record member))

theorem findDnsRecord_held (listing : readDnsRecords remote place = held.map (Held.record place))
    (finds : ∀ record ∈ held, hasValue site wanted (record.record place) = true ↔ record.text = wanted) :
    findDnsRecord site remote place wanted
      = (held.find? fun record => record.text = wanted).map (Held.record place) := by
  rw [findDnsRecord, listing, List.find?_map]
  refine congrArg _ (List.find?_congr fun record member => ?_)
  rw [Bool.eq_iff_iff, decide_eq_true_iff]
  exact finds record member

theorem readDnsRecords_created (listing : readDnsRecords remote place = held.map (Held.record place))
    (record : Held) : readDnsRecords (remote ++ [record.record place]) place
      = (held ++ [record]).map (Held.record place) := by
  rw [readDnsRecords, List.filter_append, List.map_append]
  exact congrArg₂ _ listing (List.filter_cons_of_pos (decide_eq_true rfl))

theorem created_held (txt : row.place.recordType = .txt) (stored : site.stored .txt row.value = own.content) :
    created site row = (row.held own).record row.place := by
  rw [created, txt, stored]
  rfl

/-- **A record that was just created is found**, with its own TTL, where the place holds no other of its
value. -/
theorem ensureDnsRecord_created (listing : readDnsRecords remote row.place = held.map (Held.record row.place))
    (finds : ∀ record ∈ row.held own :: held,
      hasValue site row.value (record.record row.place) = true ↔ record.text = row.value)
    (rendered : own.text = row.value) (none : ∀ record ∈ held, record.text ≠ row.value) :
    ensureDnsRecord site (remote ++ [(row.held own).record row.place]) row
      = some (remote ++ [(row.held own).record row.place]) := by
  have finds' : ∀ record ∈ held ++ [row.held own],
      hasValue site row.value (record.record row.place) = true ↔ record.text = row.value := by
    intro record member
    exact finds record (List.mem_cons.mpr ((List.mem_append.mp member).symm.imp_left List.mem_singleton.mp))
  have found : findDnsRecord site (remote ++ [(row.held own).record row.place]) row.place row.value
      = some ((row.held own).record row.place) := by
    rw [findDnsRecord_held (readDnsRecords_created listing _) finds', List.find?_append,
      List.find?_eq_none.mpr fun record member => by simpa using none record member, Option.none_or]
    have first : decide ((row.held own).text = row.value) = true := decide_eq_true rendered
    simp only [List.find?_cons, first, Option.map_some]
  rw [ensureDnsRecord, found]
  exact if_pos rfl

/-- **A wanted value is told from the others** exactly when every rendering of it is in one string and no
other text looks like it. -/
theorem identifies_iff (keeps : KeepsSpaces site.lower) (txt : row.place.recordType = .txt)
    (stored : site.stored .txt row.value = own.content) (rendered : own.text = row.value)
    (listing : readDnsRecords remote row.place = held.map (Held.record row.place)) :
    Identifies site fqdn remote row held own ↔ IsApart site fqdn held row.value own := by
  constructor
  · intro identifies
    have record : ∀ rendering ∈ own :: held.map Held.rendering,
        ∃ record ∈ row.held own :: held, record.rendering = rendering := by
      intro rendering member
      rcases List.mem_cons.mp member with rfl | listed
      · exact ⟨_, List.mem_cons_self, rfl⟩
      · obtain ⟨record, among, same⟩ := List.mem_map.mp listed
        exact ⟨record, List.mem_cons_of_mem _ among, same⟩
    refine ⟨fun rendering member same => ?_, fun rendering member other => ?_⟩
    · obtain ⟨record, among, rfl⟩ := record rendering member
      have found := (hasValue_held record).mp ((identifies.finds record among).mpr same)
      have own := congrArg (normalizeValue site ∘ some) same.symm
      exact (normalizeValue_own_iff keeps _).mp (found.trans own)
    · obtain ⟨record, among, rfl⟩ := record rendering member
      have missed : ¬ hasValue site row.value (record.record row.place) = true :=
        fun found => other ((identifies.finds record among).mp found)
      exact ⟨fun alike => missed ((hasValue_held record).mpr (normalizeValue_eq_iff.mpr alike)),
        fun agree => missed ((identifies.agrees record among).mpr agree)⟩
  · intro apart
    have finds : ∀ record ∈ row.held own :: held,
        hasValue site row.value (record.record row.place) = true ↔ record.text = row.value :=
      fun record member => hasValue_of_isApart keeps apart member
    have later : ∀ record ∈ held,
        hasValue site row.value (record.record row.place) = true ↔ record.text = row.value :=
      fun record member => finds record (List.mem_cons_of_mem _ member)
    have allowed : mxAllowed site row.place = true := by rw [mxAllowed, txt]; rfl
    have left := readDnsRecords_deleteDnsRecord listing later
    have others : ∀ record ∈ held.filter fun record => record.text ≠ row.value, record.text ≠ row.value :=
      fun record member => of_decide_eq_true (List.mem_filter.mp member).2
    have finds' : ∀ record ∈ row.held own :: held.filter fun record => record.text ≠ row.value,
        hasValue site row.value (record.record row.place) = true ↔ record.text = row.value :=
      fun record member =>
        finds record (List.mem_cons.mpr ((List.mem_cons.mp member).imp_right List.mem_of_mem_filter))
    have found := findDnsRecord_held listing later
    refine ⟨finds, fun record member => ?_, found, ?_, left, fun record member away => ?_⟩
    · rw [finds record member]
      have among : record.rendering ∈ own :: held.map Held.rendering :=
        List.mem_map_of_mem (f := Held.rendering) member
      by_cases same : record.text = row.value
      · have one := apart.same _ among same
        exact iff_of_true same ((normalizeRecordValue_own one).trans
          (congrArg (fun text => normalizeRecordValue site .txt text fqdn) same))
      · exact iff_of_false same (apart.others _ among same).2
    · cases holds : held.find? fun record => record.text = row.value with
      | none =>
        have none : ∀ record ∈ held, record.text ≠ row.value := fun record member => by
          simpa using List.find?_eq_none.mp holds record member
        have whole : (held.filter fun record => record.text ≠ row.value) = held :=
          List.filter_eq_self.mpr fun record member => decide_eq_true (none record member)
        refine ⟨_, ?_, ensureDnsRecord_created listing finds rendered none, Or.inr ?_⟩
        · rw [ensureDnsRecord, found, holds, ← created_held txt stored]
          exact if_pos allowed
        · rw [whole, readDnsRecords_created listing]
      | some record =>
        have member := List.mem_of_find?_eq_some holds
        have same : record.text = row.value := by simpa using List.find?_some holds
        by_cases fresh : record.ttl.getD 0 = row.ttl
        · have again : ensureDnsRecord site remote row = some remote := by
            rw [ensureDnsRecord, found, holds]
            exact if_pos fresh
          exact ⟨remote, again, again, Or.inl ⟨rfl, record, member, same⟩⟩
        · refine ⟨_, ?_, ensureDnsRecord_created left finds' rendered others,
            Or.inr (readDnsRecords_created left _)⟩
          rw [ensureDnsRecord, found, holds, ← created_held txt stored]
          exact (if_neg fresh).trans (if_pos allowed)
    · rw [deleteDnsRecord_eq_filter]
      exact List.mem_filter.mpr ⟨member, decide_eq_true fun both => away both.1⟩

theorem ensureDnsRecord_again (keeps : KeepsSpaces site.lower) (txt : row.place.recordType = .txt)
    (stored : site.stored .txt row.value = own.content) (rendered : own.text = row.value)
    (several : ¬ own.InOneString) :
    ((ensureDnsRecord site [] row).bind fun remote => ensureDnsRecord site remote row)
      = some [created site row, created site row] := by
  have missed : ¬ hasValue site row.value ((row.held own).record row.place) = true := by
    rw [hasValue_held, ← rendered]
    exact fun found => several ((normalizeValue_own_iff keeps own).mp found)
  have allowed : mxAllowed site row.place = true := by rw [mxAllowed, txt]; rfl
  have here : readDnsRecords [created site row] row.place = [created site row] :=
    List.filter_cons_of_pos (decide_eq_true rfl)
  have absent : findDnsRecord site [created site row] row.place row.value = none := by
    rw [findDnsRecord, here, created_held txt stored, List.find?_cons_of_neg missed]
    rfl
  have first : ensureDnsRecord site [] row = some [created site row] := if_pos allowed
  rw [first, Option.bind_some, ensureDnsRecord, absent]
  exact if_pos allowed

end Place

theorem keepsSpaces_asciiLower : KeepsSpaces asciiLower := by
  intro text
  have same : isSpace ∘ Char.toLower = isSpace := funext fun _ => isSpace_toLower
  rw [asciiLower, String.toList_ofList, List.countP_map, same]

/-- A provider that lists a text in one pair of quotes. -/
def quotedZone : Site := { oneZone with stored := fun _ value => quote value }

/-- A row of a DKIM key. -/
def sampleKeyRow (value : String) : Row :=
  ⟨1, ⟨"example.com", "mail._domainkey", .txt⟩, value, .other, 0, 300, none⟩

def sampleVerification : Held := ⟨.bare "google-site-verification=abc", some 300, 0⟩

/-- Told from another text, in quotes. -/
theorem identifies_iff_quoted :
    Identifies quotedZone "mail._domainkey.example.com"
      [sampleVerification.record (sampleKeyRow "v=DKIM1; p=AbC").place] (sampleKeyRow "v=DKIM1; p=AbC")
      [sampleVerification] (.quoted "v=DKIM1; p=AbC") := by
  have listing : readDnsRecords [sampleVerification.record (sampleKeyRow "v=DKIM1; p=AbC").place]
      (sampleKeyRow "v=DKIM1; p=AbC").place
      = [sampleVerification].map (Held.record (sampleKeyRow "v=DKIM1; p=AbC").place) :=
    List.filter_cons_of_pos (decide_eq_true rfl)
  have keeps : KeepsSpaces quotedZone.lower := keepsSpaces_asciiLower
  have stored : quotedZone.stored .txt (sampleKeyRow "v=DKIM1; p=AbC").value
      = (Rendering.quoted "v=DKIM1; p=AbC").content := rfl
  refine (identifies_iff keeps rfl stored rfl listing).mpr ⟨?_, ?_⟩
  · refine List.forall_mem_cons.mpr ⟨fun _ => ?_, List.forall_mem_singleton.mpr fun same => ?_⟩
    · show strip "v=DKIM1; p=AbC" = "v=DKIM1; p=AbC"
      decide
    · exact absurd same (by decide)
  · refine List.forall_mem_cons.mpr ⟨fun other => absurd rfl other, List.forall_mem_singleton.mpr fun _ => ?_⟩
    exact ⟨normalizeValue_eq_iff.not.mp (by decide), by decide +kernel⟩

/-- A DKIM key of more than 255 characters, in two strings. -/
def sampleCut : Rendering :=
  .cut (String.ofList (List.replicate 255 'A')) [String.ofList (List.replicate 45 'B')] (by
    simp only [List.forall_mem_cons, String.length_ofList, List.length_replicate]
    exact ⟨le_rfl, by decide, List.forall_mem_nil _⟩)

/-- A provider that lists it in two strings. -/
def cutZone : Site := { oneZone with
  stored := fun _ value => if value = sampleCut.text then sampleCut.content else value }

/-- **A key of more than 255 characters is created again** on the second call, and a key that differs in
case is taken for the wanted one, which the resolver's comparison does not take for it. -/
theorem key_mistaken :
    ((ensureDnsRecord cutZone [] (sampleKeyRow sampleCut.text)).bind fun remote =>
        ensureDnsRecord cutZone remote (sampleKeyRow sampleCut.text))
      = some [created cutZone (sampleKeyRow sampleCut.text), created cutZone (sampleKeyRow sampleCut.text)] ∧
    hasValue quotedZone "v=DKIM1; p=AbC" (Held.record (sampleKeyRow "v=DKIM1; p=AbC").place
      ⟨.quoted "v=DKIM1; p=aBc", some 300, 0⟩) = true ∧
    normalizeRecordValue quotedZone .txt (quote "v=DKIM1; p=aBc") "mail._domainkey.example.com"
      ≠ normalizeRecordValue quotedZone .txt "v=DKIM1; p=AbC" "mail._domainkey.example.com" := by
  have stored : cutZone.stored .txt sampleCut.text = sampleCut.content := by
    simp only [cutZone, ↓reduceIte]
  have keeps : KeepsSpaces cutZone.lower := keepsSpaces_asciiLower
  have several : ¬ sampleCut.InOneString := fun single => by cases single.1
  exact ⟨ensureDnsRecord_again keeps rfl stored rfl several, by decide +kernel, by decide +kernel⟩

end SuiteCloud.Dns
