/-
**The SPF chain, read as a receiver reads it.**

`spf_texts` of `suite_cloud/mail/cluster/dns.py` packs the mechanisms into texts of at most 255 characters. A
receiver splits a text at its blanks and follows every `include:`, each at the price of a DNS lookup.

* `expand`, `lookups` — the mechanisms a text stands for, and what it costs to evaluate it.
* `spfChunks_fit` — no chunk is longer than the limit.
* `spfText_length` — a text has its words and a blank before each but the first; so `few_children` — under a
  domain of eleven characters or more, ten includes are past the limit.
* `spf_chain` — **every text fits, the hosts are distinct, the first text stands for the mechanisms as they
  were given, and a customer's text costs ten lookups at most.**
-/

import Mathlib.Algebra.GroupWithZero.Nat
import SuiteCloud.Library.Dict
import SuiteCloud.Mail.Cluster.Records.Spf

namespace SuiteCloud.Mail.Cluster.Records

open SuiteCloud.Library

/-! ### Reading a text -/

/-- The words of a text. -/
def words (text : String) : List String := (text.toList.splitOn ' ').map String.ofList

/-- What an SPF text says: the words between the version and `-all`. -/
def mechanismsOf (text : String) : List String := (words text).tail.dropLast

/-- The host an `include:` names. -/
def includedHost (mechanism : String) : Option String :=
  if "include:".toList.isPrefixOf mechanism.toList then some (String.ofList (mechanism.toList.drop 8)) else none

variable (texts : Dict String String)

/-- **The mechanisms a text stands for**, its includes followed to this depth. -/
def expand : ℕ → String → List String
  | 0, text => mechanismsOf text
  | depth + 1, text => (mechanismsOf text).flatMap fun mechanism =>
      match includedHost mechanism with
      | some host => ((texts.get host).map (expand depth)).getD [mechanism]
      | none => [mechanism]

/-- **The lookups it takes to evaluate a text**, its includes followed to this depth: one for each `include:`. -/
def lookups : ℕ → String → ℕ
  | 0, _ => 0
  | depth + 1, text => ((mechanismsOf text).map fun mechanism =>
      match includedHost mechanism with
      | some host => 1 + ((texts.get host).map (lookups depth)).getD 0
      | none => 0).sum

/-- A mechanism `ip4:` or `ip6:`: digits, dots and colons, with a prefix length or none. -/
def IsIpMechanism (mechanism : String) : Prop :=
  ∃ address : String, (mechanism = "ip4:" ++ address ∨ mechanism = "ip6:" ++ address) ∧
    address.length ≤ 49 ∧ ∀ c ∈ address.toList, c.isAlphanum ∨ c = '.' ∨ c = ':' ∨ c = '/'

section Sums

variable {α : Type*} {list : List α} {cost : α → ℕ} {n : ℕ}

theorem sum_map_const (same : ∀ a ∈ list, cost a = n) : (list.map cost).sum = list.length * n := by
  induction list with
  | nil => exact (Nat.zero_mul n).symm
  | cons first rest ih =>
    rw [List.map_cons, List.sum_cons, same first List.mem_cons_self,
      ih fun a member => same a (List.mem_cons_of_mem _ member), List.length_cons, Nat.succ_mul, Nat.add_comm]

theorem length_mul_le_sum (least : ∀ a ∈ list, n ≤ cost a) : list.length * n ≤ (list.map cost).sum := by
  induction list with
  | nil => exact (Nat.zero_mul n).le
  | cons first rest ih =>
    rw [List.map_cons, List.sum_cons, List.length_cons, Nat.succ_mul, Nat.add_comm]
    exact Nat.add_le_add (least first List.mem_cons_self)
      (ih fun a member => least a (List.mem_cons_of_mem _ member))

end Sums

section Words

variable {mechanisms : List String}

theorem words_spfText (free : ∀ mechanism ∈ mechanisms, ' ' ∉ mechanism.toList) :
    words (spfText mechanisms) = ["v=spf1"] ++ mechanisms ++ ["-all"] := by
  have parts : (spfText mechanisms).toList =
      [' '].intercalate ((["v=spf1"] ++ mechanisms ++ ["-all"]).map String.toList) := by
    rw [spfText, String.toList_intercalate]
    rfl
  rw [words, parts, List.splitOn_intercalate, List.map_map]
  · exact (List.map_congr_left fun word _ => String.ofList_toList).trans (List.map_id _)
  · intro part member
    obtain ⟨word, there, rfl⟩ := List.mem_map.mp member
    rcases List.mem_append.mp there with before | last
    · rcases List.mem_append.mp before with first | listed
      · obtain rfl := List.mem_singleton.mp first
        decide
      · exact free word listed
    · obtain rfl := List.mem_singleton.mp last
      decide
  · exact List.cons_ne_nil _ _

theorem mechanismsOf_spfText (free : ∀ mechanism ∈ mechanisms, ' ' ∉ mechanism.toList) :
    mechanismsOf (spfText mechanisms) = mechanisms := by
  rw [mechanismsOf, words_spfText free, List.append_assoc, List.singleton_append, List.tail_cons,
    List.dropLast_concat]

theorem includedHost_include (host : String) : includedHost ("include:" ++ host) = some host := by
  rw [includedHost, String.toList_append, if_pos]
  · have eight : "include:".toList.length = 8 := rfl
    rw [List.drop_left' eight, String.ofList_toList]
  · exact List.isPrefixOf_iff_prefix.mpr (List.prefix_append _ _)

end Words

/-! ### The length of a text -/

theorem intercalate_length (first last : String) (between : List String) :
    (" ".intercalate (first :: (between ++ [last]))).length =
      first.length + (between.map fun word => word.length + 1).sum + 1 + last.length := by
  induction between generalizing first with
  | nil =>
    rw [List.nil_append, String.intercalate_cons_cons, String.intercalate_singleton, String.length_append,
      String.length_append]
    rfl
  | cons word rest ih =>
    rw [List.cons_append, String.intercalate_cons_cons, String.length_append, String.length_append, ih,
      List.map_cons, List.sum_cons]
    have blank : " ".length = 1 := rfl
    omega

theorem spfText_length (mechanisms : List String) :
    (spfText mechanisms).length = 11 + (mechanisms.map fun mechanism => mechanism.length + 1).sum := by
  rw [spfText, List.append_assoc, List.singleton_append, intercalate_length]
  have version : "v=spf1".length = 6 := rfl
  have all : "-all".length = 4 := rfl
  omega

section Fits

variable {mechanisms : List String}

/-- A text of one such mechanism is within the limit. -/
theorem IsIpMechanism.fits {mechanism : String} (valid : IsIpMechanism mechanism) :
    (spfText [mechanism]).length ≤ spfTextLimit := by
  obtain ⟨address, named, short, -⟩ := valid
  have four : mechanism.length = 4 + address.length := by
    rcases named with rfl | rfl
    · exact String.length_append _ _
    · exact String.length_append _ _
  rw [spfText_length, List.map_singleton, List.sum_singleton, four, spfTextLimit]
  omega

/-- Such a mechanism has no blank. -/
theorem IsIpMechanism.free {mechanism : String} (valid : IsIpMechanism mechanism) :
    ' ' ∉ mechanism.toList := by
  obtain ⟨address, named, -, chars⟩ := valid
  intro blank
  have among : ' ' ∈ address.toList := by
    rcases named with rfl | rfl
    · exact (List.mem_append.mp (String.toList_append ▸ blank)).resolve_left (by decide)
    · exact (List.mem_append.mp (String.toList_append ▸ blank)).resolve_left (by decide)
  exact absurd (chars ' ' among) (by decide)

/-- It includes nothing. -/
theorem IsIpMechanism.includes {mechanism : String} (valid : IsIpMechanism mechanism) :
    includedHost mechanism = none := by
  obtain ⟨address, named, -, -⟩ := valid
  rw [includedHost, if_neg]
  rcases named with rfl | rfl
  · rw [String.toList_append]
    simp
  · rw [String.toList_append]
    simp

theorem addMechanism_fit {chunks : List (List String) × List String} {mechanism : String}
    (valid : IsIpMechanism mechanism)
    (fit : ∀ chunk ∈ chunks.1 ++ [chunks.2], (spfText chunk).length ≤ spfTextLimit) :
    ∀ chunk ∈ (addMechanism chunks mechanism).1 ++ [(addMechanism chunks mechanism).2],
      (spfText chunk).length ≤ spfTextLimit := by
  intro chunk member
  rw [addMechanism] at member
  split at member
  · rcases List.mem_append.mp member with old | new
    · exact fit chunk old
    · obtain rfl := List.mem_singleton.mp new
      exact valid.fits
  · rename_i goes
    rcases List.mem_append.mp member with old | new
    · exact fit chunk (List.mem_append_left _ old)
    · obtain rfl := List.mem_singleton.mp new
      by_cases empty : chunks.2 = []
      · rw [empty]
        exact valid.fits
      · exact Nat.le_of_not_lt fun long => goes ⟨empty, long⟩

theorem spfChunks_fit (valid : ∀ mechanism ∈ mechanisms, IsIpMechanism mechanism) :
    ∀ chunk ∈ spfChunks mechanisms, (spfText chunk).length ≤ spfTextLimit := by
  have fold : ∀ chunks : List (List String) × List String,
      (∀ chunk ∈ chunks.1 ++ [chunks.2], (spfText chunk).length ≤ spfTextLimit) →
        ∀ chunk ∈ (mechanisms.foldl addMechanism chunks).1 ++ [(mechanisms.foldl addMechanism chunks).2],
          (spfText chunk).length ≤ spfTextLimit := by
    induction mechanisms with
    | nil => exact fun _ => id
    | cons mechanism rest ih =>
      intro chunks fit
      rw [List.foldl_cons]
      exact ih (fun other member => valid other (List.mem_cons_of_mem _ member)) _
        (addMechanism_fit (valid mechanism List.mem_cons_self) fit)
  refine fold ([], []) fun chunk member => ?_
  obtain rfl := List.mem_singleton.mp member
  decide

end Fits

/-! ### The target and its children -/

section Chain

variable {zone : String} {mechanisms : List String} {texts : Dict String String}

/-- The text of the target that includes its children. -/
def parentText (zone : String) (chunks : List (List String)) : String :=
  spfText ((spfChildren zone chunks).map fun child => "include:" ++ child.1)

/-- The target and its children. -/
def spfChain (zone : String) (chunks : List (List String)) : Dict String String :=
  ("spf." ++ zone, parentText zone chunks) ::
    (spfChildren zone chunks).map fun child => (child.1, spfText child.2)

theorem afterFirstDot_target (zone : String) : afterFirstDot ("spf." ++ zone) = zone := by
  rw [afterFirstDot, String.toList_append]
  exact String.ofList_toList

theorem spfTexts_cases (built : spfTexts ("spf." ++ zone) mechanisms = some texts) :
    ((spfText mechanisms).length ≤ spfTextLimit ∧ texts = [("spf." ++ zone, spfText mechanisms)]) ∨
      ((parentText zone (spfChunks mechanisms)).length ≤ spfTextLimit ∧
        texts = spfChain zone (spfChunks mechanisms)) := by
  simp only [spfTexts, afterFirstDot_target] at built
  split at built
  · exact Or.inl ⟨‹_›, (Option.some.inj built).symm⟩
  · split at built
    · cases built
    · exact Or.inr ⟨Nat.le_of_not_lt ‹_›, (Option.some.inj built).symm⟩

theorem spfChildren_hosts (chunks : List (List String)) :
    (spfChildren zone chunks).map Prod.fst =
      (List.range chunks.length).map fun i => "spf" ++ toString (i + 1) ++ "." ++ zone := by
  refine List.ext_getElem (by simp [spfChildren]) fun i here there => ?_
  simp [spfChildren]

theorem spfChildren_chunks (chunks : List (List String)) :
    (spfChildren zone chunks).map Prod.snd = chunks := by
  refine List.ext_getElem (by simp [spfChildren]) fun i here there => ?_
  simp [spfChildren]

theorem mem_spfChildren {chunks : List (List String)} {child : String × List String}
    (member : child ∈ spfChildren zone chunks) :
    (∃ i : ℕ, child.1 = "spf" ++ toString (i + 1) ++ "." ++ zone) ∧ child.2 ∈ chunks := by
  constructor
  · have host : child.1 ∈ (spfChildren zone chunks).map Prod.fst := List.mem_map_of_mem member
    rw [spfChildren_hosts] at host
    obtain ⟨i, -, same⟩ := List.mem_map.mp host
    exact ⟨i, same.symm⟩
  · have chunk : child.2 ∈ (spfChildren zone chunks).map Prod.snd := List.mem_map_of_mem member
    rwa [spfChildren_chunks] at chunk

theorem spfChain_keys_nodup (zone : String) (chunks : List (List String)) :
    (spfChain zone chunks).keys.Nodup := by
  have hosts : (spfChain zone chunks).keys = ("spf." ++ zone) :: (spfChildren zone chunks).map Prod.fst := by
    rw [Dict.keys, spfChain, List.map_cons, List.map_map]
    rfl
  rw [hosts, spfChildren_hosts]
  refine List.nodup_cons.mpr ⟨?_, List.nodup_range.map ?_⟩
  · intro same
    obtain ⟨i, -, equal⟩ := List.mem_map.mp same
    have chars := congrArg String.toList equal
    simp only [String.toList_append, List.append_assoc] at chars
    -- After `spf` the one goes on with a digit, the other with the dot.
    have target : "spf.".toList ++ zone.toList = "spf".toList ++ '.' :: zone.toList := rfl
    have rest := List.append_cancel_left (chars.trans target)
    cases digits : (toString (i + 1)).toList with
    | nil =>
      have some : 0 < (Nat.repr (i + 1)).length := Nat.length_repr_pos
      rw [← String.length_toList] at some
      exact absurd (congrArg List.length digits) (Nat.ne_of_gt some)
    | cons digit others =>
      rw [digits] at rest
      have dot : digit = '.' := (List.cons.inj rest).1
      have isDigit := decimal_digits (n := i + 1) (c := digit) (by rw [digits]; exact List.mem_cons_self)
      rw [dot] at isDigit
      cases isDigit
  · intro i j same
    have chars := congrArg String.toList same
    simp only [String.toList_append, List.append_assoc] at chars
    have rest := List.append_cancel_left chars
    rw [← List.append_assoc, ← List.append_assoc] at rest
    have digits := decimal_injective (List.append_cancel_right (List.append_cancel_right rest))
    exact Nat.succ.inj digits

/-! ### The chain as a whole -/

theorem child_host_free {i : ℕ} (unspaced : ' ' ∉ zone.toList) :
    ' ' ∉ ("include:" ++ ("spf" ++ toString (i + 1) ++ "." ++ zone)).toList := by
  intro blank
  simp only [String.toList_append, List.mem_append] at blank
  rcases blank with named | ((spf | number) | dot) | under
  · exact absurd named (by decide)
  · exact absurd spf (by decide)
  · cases decimal_digits number
  · exact absurd dot (by decide)
  · exact unspaced under

theorem includes_free {chunks : List (List String)} (unspaced : ' ' ∉ zone.toList) :
    ∀ mechanism ∈ (spfChildren zone chunks).map fun child => "include:" ++ child.1,
      ' ' ∉ mechanism.toList := by
  intro mechanism member
  obtain ⟨child, there, rfl⟩ := List.mem_map.mp member
  obtain ⟨i, host⟩ := (mem_spfChildren there).1
  rw [host]
  exact child_host_free unspaced

theorem expand_plain (texts : Dict String String) (depth : ℕ)
    (valid : ∀ mechanism ∈ mechanisms, IsIpMechanism mechanism) :
    expand texts depth (spfText mechanisms) = mechanisms := by
  have listed := mechanismsOf_spfText fun mechanism member => (valid mechanism member).free
  cases depth with
  | zero => exact listed
  | succ depth =>
    rw [expand, listed]
    have alone : ∀ mechanism ∈ mechanisms, (match includedHost mechanism with
        | some host => ((texts.get host).map (expand texts depth)).getD [mechanism]
        | none => [mechanism]) = [mechanism] := by
      intro mechanism member
      rw [(valid mechanism member).includes]
    rw [List.flatMap_congr alone, List.flatMap_singleton']

theorem lookups_plain (texts : Dict String String) (depth : ℕ)
    (valid : ∀ mechanism ∈ mechanisms, IsIpMechanism mechanism) :
    lookups texts depth (spfText mechanisms) = 0 := by
  have listed := mechanismsOf_spfText fun mechanism member => (valid mechanism member).free
  cases depth with
  | zero => rfl
  | succ depth =>
    rw [lookups, listed, sum_map_const (n := 0), Nat.mul_zero]
    intro mechanism member
    rw [(valid mechanism member).includes]

theorem get_child {chunks : List (List String)} {child : String × List String}
    (member : child ∈ spfChildren zone chunks) :
    (spfChain zone chunks).get child.1 = some (spfText child.2) :=
  (Dict.get_eq_some (spfChain_keys_nodup zone chunks)).mpr
    (List.mem_cons_of_mem _ (List.mem_map.mpr ⟨child, member, rfl⟩))

theorem get_target (zone : String) (chunks : List (List String)) :
    (spfChain zone chunks).get ("spf." ++ zone) = some (parentText zone chunks) :=
  (Dict.get_eq_some (spfChain_keys_nodup zone chunks)).mpr List.mem_cons_self

theorem child_chunk {child : String × List String} (member : child ∈ spfChildren zone (spfChunks mechanisms))
    {mechanism : String} (there : mechanism ∈ child.2) : mechanism ∈ mechanisms := by
  rw [← spfChunks_flatten mechanisms]
  exact List.mem_flatten.mpr ⟨child.2, (mem_spfChildren member).2, there⟩

theorem expand_parent (unspaced : ' ' ∉ zone.toList)
    (valid : ∀ mechanism ∈ mechanisms, IsIpMechanism mechanism) (depth : ℕ) :
    expand (spfChain zone (spfChunks mechanisms)) (depth + 1) (parentText zone (spfChunks mechanisms)) =
      mechanisms := by
  rw [expand, parentText, mechanismsOf_spfText (includes_free unspaced), List.flatMap_map]
  have follow : ∀ child ∈ spfChildren zone (spfChunks mechanisms),
      (match includedHost ("include:" ++ child.1) with
        | some host => (((spfChain zone (spfChunks mechanisms)).get host).map
            (expand (spfChain zone (spfChunks mechanisms)) depth)).getD ["include:" ++ child.1]
        | none => ["include:" ++ child.1]) = child.2 := by
    intro child member
    simp only [includedHost_include, get_child member, Option.map_some, Option.getD_some]
    exact expand_plain _ depth fun mechanism there => valid mechanism (child_chunk member there)
  rw [List.flatMap_congr follow, List.flatMap_def, spfChildren_chunks, spfChunks_flatten]

/-- **Ten includes are past the limit**, under a domain of eleven characters or more. -/
theorem few_children {chunks : List (List String)} (long : 11 ≤ zone.length)
    (fits : (parentText zone chunks).length ≤ spfTextLimit) : (spfChildren zone chunks).length ≤ 9 := by
  rw [parentText, spfText_length, List.map_map] at fits
  have each : ∀ child ∈ spfChildren zone chunks, 25 ≤ ("include:" ++ child.1).length + 1 := by
    intro child member
    obtain ⟨i, host⟩ := (mem_spfChildren member).1
    have digit : 0 < (toString (i + 1)).length := Nat.length_repr_pos
    have include' : "include:".length = 8 := rfl
    have spf : "spf".length = 3 := rfl
    have dot : ".".length = 1 := rfl
    rw [host, String.length_append, String.length_append, String.length_append, String.length_append]
    omega
  have total := length_mul_le_sum each
  have limit : spfTextLimit = 255 := rfl
  simp only [Function.comp_def] at fits
  omega

theorem lookups_parent (unspaced : ' ' ∉ zone.toList)
    (valid : ∀ mechanism ∈ mechanisms, IsIpMechanism mechanism) (depth : ℕ) :
    lookups (spfChain zone (spfChunks mechanisms)) (depth + 1) (parentText zone (spfChunks mechanisms)) =
      (spfChildren zone (spfChunks mechanisms)).length := by
  rw [lookups, parentText, mechanismsOf_spfText (includes_free unspaced), List.map_map,
    sum_map_const (n := 1), Nat.mul_one]
  intro child member
  simp only [Function.comp_apply, includedHost_include, get_child member, Option.map_some, Option.getD_some]
  rw [lookups_plain _ depth fun mechanism there => valid mechanism (child_chunk member there)]

theorem lookups_customer {target : String} (unspaced : ' ' ∉ zone.toList)
    (found : texts.get ("spf." ++ zone) = some target) (depth : ℕ) :
    lookups texts (depth + 1) (spfText ["include:spf." ++ zone]) = 1 + lookups texts depth target := by
  have free : ∀ mechanism ∈ ["include:spf." ++ zone], ' ' ∉ mechanism.toList := by
    intro mechanism member
    obtain rfl := List.mem_singleton.mp member
    intro blank
    rcases List.mem_append.mp (String.toList_append ▸ blank) with named | under
    · exact absurd named (by decide)
    · exact unspaced under
  have host : includedHost ("include:spf." ++ zone) = some ("spf." ++ zone) := by
    have parts : "include:spf." ++ zone = "include:" ++ ("spf." ++ zone) := by
      rw [← String.append_assoc]
      rfl
    rw [parts, includedHost_include]
  rw [lookups, mechanismsOf_spfText free, List.map_singleton, List.sum_singleton, host]
  simp only [found, Option.map_some, Option.getD_some]

theorem spfText_ends (mechanisms : List String) :
    "v=spf1".toList <+: (spfText mechanisms).toList ∧ "-all".toList <:+ (spfText mechanisms).toList := by
  have parts : spfText mechanisms =
      " ".intercalate (["v=spf1"] ++ mechanisms) ++ " " ++ " ".intercalate ["-all"] :=
    String.intercalate_append_of_ne_nil (List.cons_ne_nil _ _) (List.cons_ne_nil _ _)
  constructor
  · rw [spfText, List.append_assoc, List.singleton_append, String.intercalate_cons_of_ne_nil
      (List.append_ne_nil_of_right_ne_nil _ (List.cons_ne_nil _ _)), String.append_assoc, String.toList_append]
    exact List.prefix_append _ _
  · rw [parts, String.intercalate_singleton, String.toList_append]
    exact List.suffix_append _ _

/-- **The SPF chain is exact and resolvable.** -/
theorem spf_chain {zone : String} {mechanisms : List String} {texts : Dict String String}
    (unspaced : ' ' ∉ zone.toList) (valid : ∀ mechanism ∈ mechanisms, IsIpMechanism mechanism)
    (built : spfTexts ("spf." ++ zone) mechanisms = some texts) :
    (∀ entry ∈ texts, entry.2.length ≤ 255 ∧ "v=spf1".toList <+: entry.2.toList ∧
      "-all".toList <:+ entry.2.toList) ∧
    texts.keys.Nodup ∧
    (∃ first, texts.head? = some ("spf." ++ zone, first) ∧
      ∀ depth, expand texts (depth + 1) first = mechanisms) ∧
    (11 ≤ zone.length → ∀ depth, lookups texts depth (spfText ["include:spf." ++ zone]) ≤ 10) := by
  rcases spfTexts_cases built with ⟨fits, rfl⟩ | ⟨fits, rfl⟩
  · refine ⟨?_, List.nodup_singleton _, ⟨_, rfl, fun depth => expand_plain _ _ valid⟩, fun _ depth => ?_⟩
    · intro entry member
      obtain rfl := List.mem_singleton.mp member
      exact ⟨fits, spfText_ends mechanisms⟩
    · cases depth with
      | zero => exact Nat.zero_le _
      | succ depth =>
        have once : Dict.keys [("spf." ++ zone, spfText mechanisms)] |>.Nodup := List.nodup_singleton _
        have found := (Dict.get_eq_some once).mpr List.mem_cons_self
        rw [lookups_customer unspaced found, lookups_plain _ depth valid]
        decide
  · refine ⟨?_, spfChain_keys_nodup _ _, ⟨_, rfl, expand_parent unspaced valid⟩, fun long depth => ?_⟩
    · intro entry member
      rcases List.mem_cons.mp member with rfl | child
      · exact ⟨fits, spfText_ends _⟩
      · obtain ⟨given, there, rfl⟩ := List.mem_map.mp child
        exact ⟨spfChunks_fit valid _ (mem_spfChildren there).2, spfText_ends _⟩
    · have few := few_children long fits
      match depth with
      | 0 => exact Nat.zero_le _
      | 1 =>
        rw [lookups_customer unspaced (get_target zone _)]
        exact Nat.succ_le_succ (Nat.zero_le _)
      | depth + 2 =>
        rw [lookups_customer unspaced (get_target zone _), lookups_parent unspaced valid]
        omega

/-- The addresses of a node. -/
def nodeIps : List String := ["ip4:192.0.2.1", "ip6:2001:db8::1"]

theorem address_valid {address : String} (short : address.length ≤ 49)
    (fine : (address.toList.all fun c => c.isAlphanum || c == '.' || c == ':' || c == '/') = true) :
    address.length ≤ 49 ∧
      ∀ c ∈ address.toList, c.isAlphanum ∨ c = '.' ∨ c = ':' ∨ c = '/' := by
  refine ⟨short, fun c member => ?_⟩
  have holds := List.all_eq_true.mp fine c member
  simpa [or_assoc] using holds

theorem nodeIps_valid : ∀ mechanism ∈ nodeIps, IsIpMechanism mechanism := by
  intro mechanism member
  rcases List.mem_cons.mp member with rfl | member
  · exact ⟨"192.0.2.1", Or.inl rfl, address_valid (by decide) (by decide)⟩
  · obtain rfl := List.mem_singleton.mp member
    exact ⟨"2001:db8::1", Or.inr rfl, address_valid (by decide) (by decide)⟩

theorem spf_chain_node : ∃ texts : Dict String String,
    spfTexts ("spf." ++ "mail.eu.example.com") nodeIps = some texts ∧
      (∃ first, texts.head? = some ("spf." ++ "mail.eu.example.com", first) ∧
        expand texts 1 first = nodeIps) ∧
      lookups texts 10 (spfText ["include:spf." ++ "mail.eu.example.com"]) ≤ 10 := by
  have short : (spfText nodeIps).length ≤ spfTextLimit := by
    rw [spfText_length]
    decide
  have built : spfTexts ("spf." ++ "mail.eu.example.com") nodeIps =
      some [("spf." ++ "mail.eu.example.com", spfText nodeIps)] := by
    rw [spfTexts, if_pos short]
  have unspaced : ' ' ∉ "mail.eu.example.com".toList := by decide
  have long : 11 ≤ "mail.eu.example.com".length := by decide
  obtain ⟨-, -, ⟨first, head, expanded⟩, few⟩ := spf_chain unspaced nodeIps_valid built
  exact ⟨_, built, ⟨first, head, expanded 0⟩, few long 10⟩

end Chain

end SuiteCloud.Mail.Cluster.Records
