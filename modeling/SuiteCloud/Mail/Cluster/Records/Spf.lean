/-
**The published SPF and the addresses that send.**

`sync_spf_record` publishes `spf_records` for the addresses that send now. Which these are depends on
the nodes' statuses: `activate_node`, `after_provision` and `drain_node` sync after they write one;
`restore_node` and `after_upgrade` do not.

### What is proved

* `spfChunks_flatten` — the chunks of a long text lose no mechanism.
* `Publishes.listed` — what is published for a list of addresses lists each of them, in the include
  target's text or in a child it includes.
* `spf_covers_senders` — **in every run in which a node that is made `Provisioned` again is settled by
  the check that follows or was listed before, every address that sends is listed**; a step after which
  they are is one that meets this.
* `restored_node_unlisted` — a node that is restored, not ready yet, and in no SPF record.
-/

import SuiteCloud.Mail.Cluster.Records.Model

set_option linter.unusedSectionVars false

namespace SuiteCloud.Mail.Cluster.Records

open SuiteCloud.Library SuiteCloud.Dns

variable {site : Site} {cluster : StalwartCluster} {s s' : State} {name : String}

/-! ### Texts -/

/-- The text has the mechanism between two blanks. -/
def HasMechanism (text mechanism : String) : Prop :=
  (" " ++ mechanism ++ " ").toList <:+: text.toList

instance (text mechanism : String) : Decidable (HasMechanism text mechanism) :=
  inferInstanceAs (Decidable (_ <:+: _))

theorem spfText_has {mechanisms : List String} {mechanism : String} (member : mechanism ∈ mechanisms) :
    HasMechanism (spfText mechanisms) mechanism := by
  obtain ⟨before, after, rfl⟩ := List.append_of_mem member
  have around : spfText (before ++ mechanism :: after) =
      " ".intercalate ("v=spf1" :: before) ++ (" " ++ mechanism ++ " ") ++
        " ".intercalate (after ++ ["-all"]) := by
    have words : ["v=spf1"] ++ (before ++ mechanism :: after) ++ ["-all"] =
        ("v=spf1" :: before) ++ mechanism :: (after ++ ["-all"]) := by simp
    rw [spfText, words, String.intercalate_append_of_ne_nil (List.cons_ne_nil _ _) (List.cons_ne_nil _ _),
      String.intercalate_cons_of_ne_nil (List.append_ne_nil_of_right_ne_nil _ (List.cons_ne_nil _ _))]
    simp only [String.append_assoc]
  rw [HasMechanism, around]
  generalize " " ++ mechanism ++ " " = word
  rw [String.toList_append, String.toList_append]
  exact List.infix_append _ _ _

theorem spfText_trimmed (mechanisms : List String) : strip (spfText mechanisms) = spfText mechanisms := by
  refine strip_eq_self ?_ ?_
  · intro c member
    rw [spfText, List.append_assoc, List.singleton_append, String.intercalate_cons_of_ne_nil
      (List.append_ne_nil_of_right_ne_nil _ (List.cons_ne_nil _ _)), String.toList_append,
      String.toList_append] at member
    obtain rfl := Option.some.inj member
    rfl
  · intro c member
    have started : ["v=spf1"] ++ mechanisms ≠ [] := List.cons_ne_nil _ _
    rw [spfText, String.intercalate_append_of_ne_nil started (List.cons_ne_nil _ _),
      String.intercalate_singleton, String.toList_append,
      List.getLast?_append_of_ne_nil _ (by decide)] at member
    obtain rfl := Option.some.inj member
    rfl

theorem addMechanism_flatten (chunks : List (List String) × List String) (mechanism : String) :
    ((addMechanism chunks mechanism).1 ++ [(addMechanism chunks mechanism).2]).flatten =
      (chunks.1 ++ [chunks.2]).flatten ++ [mechanism] := by
  rw [addMechanism]
  split
  · simp
  · simp

theorem spfChunks_flatten (mechanisms : List String) : (spfChunks mechanisms).flatten = mechanisms := by
  have fold : ∀ chunks : List (List String) × List String,
      ((mechanisms.foldl addMechanism chunks).1 ++ [(mechanisms.foldl addMechanism chunks).2]).flatten =
        (chunks.1 ++ [chunks.2]).flatten ++ mechanisms := by
    induction mechanisms with
    | nil => exact fun chunks => (List.append_nil _).symm
    | cons mechanism rest ih =>
      intro chunks
      rw [List.foldl_cons, ih, addMechanism_flatten, List.append_assoc, List.singleton_append]
  exact fold ([], [])

/-! ### The texts of the include target -/

section Target

variable {mechanisms : List String} {texts : List (String × String)}

theorem afterFirstDot_spfInclude : afterFirstDot (spfInclude cluster) = cluster.defaultDomain := by
  rw [spfInclude, afterFirstDot, String.toList_append]
  exact String.ofList_toList

variable (cluster mechanisms) in
/-- The children of the include target. -/
def includeChildren : List (String × List String) :=
  spfChildren cluster.defaultDomain (spfChunks mechanisms)

theorem includeChildren_host {child : String × List String}
    (member : child ∈ includeChildren cluster mechanisms) :
    ∃ i : ℕ, child.1 = "spf" ++ toString (i + 1) ++ "." ++ cluster.defaultDomain := by
  obtain ⟨i, bound, rfl⟩ := List.mem_mapIdx.mp member
  exact ⟨i, rfl⟩

variable (cluster) in
theorem includeChildren_chunk {mechanism : String} (member : mechanism ∈ mechanisms) :
    ∃ child ∈ includeChildren cluster mechanisms, mechanism ∈ child.2 := by
  rw [← spfChunks_flatten mechanisms] at member
  obtain ⟨chunk, there, inside⟩ := List.mem_flatten.mp member
  obtain ⟨i, bound, rfl⟩ := List.mem_iff_getElem.mp there
  exact ⟨_, List.mem_mapIdx.mpr ⟨i, bound, rfl⟩, inside⟩

theorem spfTexts_eq (built : spfTexts (spfInclude cluster) mechanisms = some texts) :
    texts = [(spfInclude cluster, spfText mechanisms)] ∨
      texts = (spfInclude cluster, spfText ((includeChildren cluster mechanisms).map
        fun child => "include:" ++ child.1)) ::
          (includeChildren cluster mechanisms).map fun child => (child.1, spfText child.2) := by
  simp only [spfTexts, afterFirstDot_spfInclude] at built
  split at built
  · exact Or.inl (Option.some.inj built).symm
  · split at built
    · cases built
    · exact Or.inr (Option.some.inj built).symm

theorem mem_spfTexts (built : spfTexts (spfInclude cluster) mechanisms = some texts)
    {entry : String × String} (member : entry ∈ texts) :
    ∃ label listed, (∀ c ∈ label.toList.head?, isSpace c = false) ∧
      entry = (label ++ "." ++ cluster.defaultDomain, spfText listed) := by
  have spf : ∀ c ∈ "spf".toList.head?, isSpace c = false := by
    intro c first
    obtain rfl : 's' = c := Option.some.inj first
    rfl
  rcases spfTexts_eq built with rfl | rfl
  · obtain rfl := List.mem_singleton.mp member
    exact ⟨"spf", _, spf, rfl⟩
  · rcases List.mem_cons.mp member with rfl | child
    · exact ⟨"spf", _, spf, rfl⟩
    · obtain ⟨given, there, rfl⟩ := List.mem_map.mp child
      obtain ⟨i, host⟩ := includeChildren_host there
      refine ⟨"spf" ++ toString (i + 1), given.2, ?_, by rw [host]⟩
      intro c first
      rw [String.toList_append] at first
      exact spf c first

theorem spfTexts_list (built : spfTexts (spfInclude cluster) mechanisms = some texts)
    {mechanism : String} (member : mechanism ∈ mechanisms) :
    ∃ target, (spfInclude cluster, target) ∈ texts ∧
      (HasMechanism target mechanism ∨ ∃ label text,
        HasMechanism target ("include:" ++ (label ++ "." ++ cluster.defaultDomain)) ∧
        (label ++ "." ++ cluster.defaultDomain, text) ∈ texts ∧ HasMechanism text mechanism) := by
  rcases spfTexts_eq built with rfl | rfl
  · exact ⟨_, List.mem_singleton_self _, Or.inl (spfText_has member)⟩
  · obtain ⟨child, there, inside⟩ := includeChildren_chunk cluster member
    obtain ⟨i, host⟩ := includeChildren_host there
    refine ⟨_, List.mem_cons_self, Or.inr ⟨"spf" ++ toString (i + 1), spfText child.2, ?_, ?_, ?_⟩⟩
    · rw [← host]
      exact spfText_has (List.mem_map_of_mem there)
    · rw [← host]
      exact List.mem_cons_of_mem _ (List.mem_map_of_mem there)
    · exact spfText_has inside

end Target

/-! ### What is published -/

section Published

variable {ips : List Ip} {records : List Desired}

variable (cluster) in
/-- A row of the SPF records. -/
def spfRow (host text : String) : Desired where
  place := ⟨cluster.dnsZone, host, .txt⟩
  value := text
  category := .spf

theorem spfRow_normal {host text : String} (trimmed : strip host = host) (text' : strip text = text) :
    (spfRow cluster host text).Normal :=
  ⟨cluster.zoned, trimmed, text'⟩

theorem host_trimmed : strip cluster.host = cluster.host :=
  strip_eq_self (fun c member => host_unspaced c (List.mem_of_mem_head? member))
    fun c member => host_unspaced c (List.mem_of_getLast? member)

theorem mem_spfRecords (built : spfRecords cluster ips = some records) :
    ∃ texts, spfTexts (spfInclude cluster) (ips.map Ip.mechanism) = some texts ∧
      ∀ row, row ∈ records ↔
        (∃ label text, (label ++ "." ++ cluster.defaultDomain, text) ∈ texts ∧
          row = spfRow cluster (label ++ "." ++ cluster.host) text) ∨
        row = spfRow cluster cluster.host (spfText ["include:" ++ spfInclude cluster]) := by
  obtain ⟨texts, target, built⟩ := Option.bind_eq_some_iff.mp built
  obtain ⟨rows, collected, built⟩ := Option.bind_eq_some_iff.mp built
  obtain ⟨host, own, built⟩ := Option.bind_eq_some_iff.mp built
  have zone : relativeHost cluster.defaultDomain cluster.dnsZone = some cluster.host :=
    relativeHost_append cluster.host cluster.dnsZone
  obtain rfl := Option.some.inj (zone.symm.trans own)
  obtain rfl := Option.some.inj built
  refine ⟨texts, target, fun row => ?_⟩
  rw [List.mem_append, List.mem_singleton, mem_collect collected]
  refine or_congr_left ?_
  constructor
  · rintro ⟨entry, there, given, gave, member⟩
    obtain ⟨label, listed, -, rfl⟩ := mem_spfTexts target there
    rw [relativeHost_under] at gave
    obtain rfl := Option.some.inj gave
    exact ⟨label, _, there, List.mem_singleton.mp member⟩
  · rintro ⟨label, text, there, rfl⟩
    refine ⟨_, there, _, ?_, List.mem_singleton_self _⟩
    rw [relativeHost_under]
    rfl

theorem spfRecords_normal (built : spfRecords cluster ips = some records) :
    ∀ row ∈ records, row.Normal := by
  intro row member
  obtain ⟨texts, target, rows⟩ := mem_spfRecords built
  rcases (rows row).mp member with ⟨label, text, there, rfl⟩ | rfl
  · obtain ⟨given, listed, first, same⟩ := mem_spfTexts target there
    obtain ⟨host, rfl⟩ := Prod.mk.inj same
    have chars := congrArg String.toList host
    simp only [String.toList_append] at chars
    obtain rfl := String.toList_inj.mp (List.append_cancel_right (List.append_cancel_right chars))
    exact spfRow_normal (strip_under label first) (spfText_trimmed listed)
  · exact spfRow_normal host_trimmed (spfText_trimmed _)

variable (site cluster) in
/-- **The cluster's rows are the SPF records of these addresses.** -/
def Publishes (s : State) (ips : List Ip) : Prop :=
  ∃ records, spfRecords cluster ips = some records ∧
    Holds s.table (clusterOwner cluster) fun key => ∃ row ∈ records, row.key site = key

variable (site cluster) in
/-- The cluster has this TXT record. -/
def HasText (s : State) (host text : String) : Prop :=
  (⟨cluster.dnsZone, site.lower host, .txt⟩, text) ∈
    (managedRows s.table.rows (clusterOwner cluster)).map Row.key

variable (site cluster) in
/-- **The published SPF lists the address**: the include target's text does, or that of a child it
includes. -/
def Listed (s : State) (ip : Ip) : Prop :=
  ∃ target, HasText site cluster s ("spf." ++ cluster.host) target ∧
    (HasMechanism target ip.mechanism ∨ ∃ child text,
      HasMechanism target ("include:" ++ (child ++ "." ++ cluster.dnsZone)) ∧
      HasText site cluster s child text ∧ HasMechanism text ip.mechanism)

theorem Publishes.listed (publishes : Publishes site cluster s ips) {ip : Ip} (member : ip ∈ ips) :
    Listed site cluster s ip := by
  obtain ⟨records, built, holds⟩ := publishes
  obtain ⟨texts, target, rows⟩ := mem_spfRecords built
  have published {label text : String} (there : (label ++ "." ++ cluster.defaultDomain, text) ∈ texts) :
      HasText site cluster s (label ++ "." ++ cluster.host) text := by
    have wanted := (rows _).mpr (Or.inl ⟨label, text, there, rfl⟩)
    refine (holds.keys _).mpr ⟨_, wanted, ?_⟩
    have trimmed := (spfRecords_normal built _ wanted).value
    rw [Desired.key, trimmed]
    rfl
  obtain ⟨text, there, lists⟩ := spfTexts_list target (List.mem_map_of_mem member)
  have own : HasText site cluster s ("spf" ++ "." ++ cluster.host) text := published there
  refine ⟨text, own, lists.imp_right ?_⟩
  rintro ⟨label, childText, included, inside, has⟩
  refine ⟨label ++ "." ++ cluster.host, childText, ?_, published inside, has⟩
  simpa only [StalwartCluster.defaultDomain, StalwartCluster.hostname, String.append_assoc] using included

theorem syncSpfRecord_publishes (done : syncSpfRecord site cluster s = some s') :
    Publishes site cluster s' (sendingIps s') := by
  obtain ⟨records, table, built, result, rfl⟩ := reconcile_eq_some done
  exact ⟨records, built, reconcile_holds result (spfRecords_normal built)⟩

end Published

/-! ### Steps that send from no new address, and steps that sync -/

section Frames

variable {health : Health} {node new : StalwartNode} {ip : Ip}

theorem mem_sendingIps : ip ∈ sendingIps s ↔
    (∃ node ∈ s.nodes, node.status.sends = true ∧ ip ∈ node.addresses) ∨
      ∃ pool ∈ s.pools, ∃ row ∈ pool.addresses, row.ipAddress = ip := by
  rw [sendingIps, Dict.mem_keys_ofList, List.map_map, List.mem_map]
  simp only [Function.comp_apply, exists_eq_right, List.mem_append, List.mem_flatMap, List.mem_filter,
    List.mem_map, and_assoc]

variable (cluster) in
/-- The published rows stay, and no address starts to send. -/
structure Lessens (s s' : State) : Prop where
  rows : managedRows s'.table.rows (clusterOwner cluster) = managedRows s.table.rows (clusterOwner cluster)
  sends : ∀ ip ∈ sendingIps s', ip ∈ sendingIps s

variable (site cluster) in
/-- The published rows list every address that sends. -/
def Covers (s : State) : Prop := ∃ ips, Publishes site cluster s ips ∧ ∀ ip ∈ sendingIps s, ip ∈ ips

variable (site cluster) in
/-- **The step sends from no new address, or the SPF record was synced.** -/
def Follows (s s' : State) : Prop := Lessens cluster s s' ∨ Covers site cluster s'

theorem Lessens.refl (s : State) : Lessens cluster s s := ⟨rfl, fun _ member => member⟩

theorem Lessens.trans {s₁ s₂ s₃ : State} (first : Lessens cluster s₁ s₂) (second : Lessens cluster s₂ s₃) :
    Lessens cluster s₁ s₃ :=
  ⟨second.rows.trans first.rows, fun ip member => first.sends ip (second.sends ip member)⟩

theorem Publishes.congr {ips : List Ip} (publishes : Publishes site cluster s ips)
    (rows : managedRows s'.table.rows (clusterOwner cluster) =
      managedRows s.table.rows (clusterOwner cluster)) : Publishes site cluster s' ips := by
  obtain ⟨records, built, holds⟩ := publishes
  exact ⟨records, built, holds.congr rows fun _ => Iff.rfl⟩

theorem Follows.trans {s₁ s₂ s₃ : State} (first : Follows site cluster s₁ s₂)
    (second : Follows site cluster s₂ s₃) : Follows site cluster s₁ s₃ := by
  rcases second with less | covers
  · rcases first with less' | ⟨ips, publishes, covered⟩
    · exact Or.inl (less'.trans less)
    · exact Or.inr ⟨ips, publishes.congr less.rows, fun ip member => covered ip (less.sends ip member)⟩
  · exact Or.inr covers

theorem syncSpfRecord_covers (done : syncSpfRecord site cluster s = some s') : Covers site cluster s' :=
  ⟨_, syncSpfRecord_publishes done, fun _ member => member⟩

theorem reconcile_lessens {owner : Owner} {records : Option (List Desired)}
    (done : reconcile site s owner records = some s') (kind : owner.doctype ≠ "Stalwart Cluster") :
    Lessens cluster s s' := by
  have rows : managedRows s'.table.rows (clusterOwner cluster) =
      managedRows s.table.rows (clusterOwner cluster) :=
    reconcile_rows_of_ne done fun same => kind (congrArg Owner.doctype same).symm
  obtain ⟨desired, table, -, -, rfl⟩ := reconcile_eq_some done
  exact ⟨rows, fun _ member => member⟩

/-! #### Nodes -/

theorem mem_setNode {other : StalwartNode} (member : other ∈ (s.setNode new).nodes) :
    other = new ∨ (other ∈ s.nodes ∧ other.name ≠ new.name) := by
  obtain ⟨before, there, rfl⟩ := List.mem_map.mp member
  split
  · exact Or.inl rfl
  · rename_i differs
    exact Or.inr ⟨there, differs⟩

theorem setNode_lessens (less : new.status.sends = true →
      ∃ node ∈ s.nodes, node.status.sends = true ∧ new.addresses = node.addresses) :
    Lessens cluster s (s.setNode new) := by
  refine ⟨rfl, fun ip member => mem_sendingIps.mpr ?_⟩
  refine (mem_sendingIps.mp member).imp_left ?_
  rintro ⟨other, stays, sends, inside⟩
  rcases mem_setNode stays with rfl | ⟨before, -⟩
  · obtain ⟨node, there, sent, same⟩ := less sends
    exact ⟨node, there, sent, same ▸ inside⟩
  · exact ⟨other, before, sends, inside⟩

theorem setNode_idle (idle : new.status.sends = false) : Lessens cluster s (s.setNode new) :=
  setNode_lessens fun sends => absurd (idle.symm.trans sends) nofun

theorem syncNodeRecords_lessens {includeIngress : Bool}
    (done : syncNodeRecords site cluster s name includeIngress = some s') : Lessens cluster s s' := by
  obtain ⟨node, here, done⟩ := Option.bind_eq_some_iff.mp done
  obtain ⟨middle, reconciled, done⟩ := Option.bind_eq_some_iff.mp done
  have rows : Lessens cluster s middle :=
    reconcile_lessens reconciled (show "Stalwart Node" ≠ "Stalwart Cluster" by decide)
  obtain ⟨desired, table, -, -, rfl⟩ := reconcile_eq_some reconciled
  obtain rfl := Option.some.inj done
  split
  · exact rows.trans (setNode_lessens fun sends => ⟨node, (node_mem here).1, sends, rfl⟩)
  · exact rows

theorem activateNode_covers (done : activateNode site cluster s name = some s') :
    Covers site cluster s' := by
  obtain ⟨node, -, done⟩ := Option.bind_eq_some_iff.mp done
  split at done
  · cases done
  · obtain ⟨middle, -, spf⟩ := Option.bind_eq_some_iff.mp done
    exact syncSpfRecord_covers spf

theorem notReady_lessens (node : StalwartNode) (expired : Bool) :
    Lessens cluster s (notReady s node expired) := by
  rw [notReady]
  split
  · exact setNode_idle rfl
  · exact Lessens.refl s

theorem finishBootstrap_cases (done : finishBootstrap site cluster s health = some s') :
    (∃ first node, s.bootstrapNode = some first ∧ s.node first = some node ∧
      node.status = .provisioned ∧
      ((health = .ready ∧ Covers site cluster s') ∨
        (health = .notReady true ∧ s' = { s.setNodeStatus node .failed with clusterStatus := .failed }) ∨
        (health = .notReady false ∧ s' = s))) ∨
    ((∀ first node, s.bootstrapNode = some first → s.node first = some node →
      node.status ≠ .provisioned) ∧ s' = s) := by
  rw [finishBootstrap] at done
  split at done
  · rename_i nobody
    refine Or.inr ⟨fun first node known => ?_, (Option.some.inj done).symm⟩
    exact absurd (nobody.symm.trans known) nofun
  · rename_i first known
    obtain ⟨node, here, done⟩ := Option.bind_eq_some_iff.mp done
    by_cases idle : node.status ≠ .provisioned
    · rw [if_pos idle] at done
      refine Or.inr ⟨fun first' node' known' here' => ?_, (Option.some.inj done).symm⟩
      obtain rfl := Option.some.inj (known.symm.trans known')
      obtain rfl := Option.some.inj (here.symm.trans here')
      exact idle
    · rw [if_neg idle] at done
      have provisioned := not_not.mp idle
      refine Or.inl ⟨first, node, known, here, provisioned, ?_⟩
      split at done
      · refine Or.inr (Or.inl ⟨rfl, ?_⟩)
        rw [← Option.some.inj done, notReady, if_pos ⟨rfl, provisioned⟩]
      · exact Or.inr (Or.inr ⟨rfl, (Option.some.inj done).symm⟩)
      · exact Or.inl ⟨rfl, activateNode_covers done⟩

theorem finishBootstrap_follows (done : finishBootstrap site cluster s health = some s') :
    Follows site cluster s s' := by
  rcases finishBootstrap_cases done with ⟨first, node, -, -, -, ends⟩ | ⟨-, rfl⟩
  · rcases ends with ⟨-, covers⟩ | ⟨-, rfl⟩ | ⟨-, rfl⟩
    · exact Or.inr covers
    · exact Or.inl (Lessens.trans (setNode_idle rfl) ⟨rfl, fun _ member => member⟩)
    · exact Or.inl (Lessens.refl s')
  · exact Or.inl (Lessens.refl s')

theorem checkNode_follows (done : checkNode site cluster s name health = some s') :
    Follows site cluster s s' := by
  obtain ⟨node, -, done⟩ := Option.bind_eq_some_iff.mp done
  split at done
  · exact finishBootstrap_follows done
  · split at done
    · obtain rfl := Option.some.inj done
      exact Or.inl (Lessens.refl s)
    · split at done
      · obtain rfl := Option.some.inj done
        exact Or.inl (notReady_lessens node _)
      · split at done
        · exact Or.inr (activateNode_covers done)
        · obtain rfl := Option.some.inj done
          exact Or.inl (Lessens.refl s)

theorem drainNode_covers (done : drainNode site cluster s name = some s') : Covers site cluster s' := by
  obtain ⟨middle, -, done⟩ := Option.bind_eq_some_iff.mp done
  obtain ⟨node, -, done⟩ := Option.bind_eq_some_iff.mp done
  exact syncSpfRecord_covers done

theorem provisionNode_lessens (done : provisionNode cluster s name = some s') : Lessens cluster s s' := by
  obtain ⟨node, -, done⟩ := Option.bind_eq_some_iff.mp done
  split at done
  · cases done
  · split at done
    · split at done
      · cases done
      · obtain rfl := Option.some.inj done
        have started : Lessens cluster s
            { s with clusterStatus := .bootstrapping, bootstrapNode := some name } :=
          ⟨rfl, fun _ member => member⟩
        exact started.trans (setNode_idle rfl)
    · split at done
      · obtain rfl := Option.some.inj done
        exact setNode_idle rfl
      · split at done
        · obtain rfl := Option.some.inj done
          exact setNode_idle rfl
        · cases done

theorem afterProvision_follows (done : afterProvision site cluster s name health = some s') :
    Follows site cluster s s' := by
  obtain ⟨node, -, done⟩ := Option.bind_eq_some_iff.mp done
  obtain ⟨middle, -, done⟩ := Option.bind_eq_some_iff.mp done
  obtain ⟨listed, spf, checked⟩ := Option.bind_eq_some_iff.mp done
  have synced : Follows site cluster s listed := Or.inr (syncSpfRecord_covers spf)
  exact synced.trans (checkNode_follows checked)

theorem afterProvisionFailed_lessens {exhausted : Bool}
    (done : afterProvisionFailed s name exhausted = some s') : Lessens cluster s s' := by
  obtain ⟨node, -, done⟩ := Option.bind_eq_some_iff.mp done
  obtain rfl := Option.some.inj done
  have failed : Lessens cluster s (s.setNodeStatus node .failed) := setNode_idle rfl
  split
  · exact failed.trans ⟨rfl, fun _ member => member⟩
  · exact failed

theorem upgradeNode_follows (done : upgradeNode site cluster s name = some s') :
    Follows site cluster s s' := by
  obtain ⟨node, -, done⟩ := Option.bind_eq_some_iff.mp done
  split at done
  · cases done
  · split at done
    · exact Or.inr (drainNode_covers done)
    · obtain rfl := Option.some.inj done
      exact Or.inl (Lessens.refl s)

theorem insertNode_lessens {ipv4 : Ip} {ipv6 : Option Ip} {role : Role} {enabled : Bool}
    (done : insertNode site cluster s name ipv4 ipv6 role enabled = some s') : Lessens cluster s s' := by
  rw [insertNode] at done
  split at done
  · cases done
  · have added : Lessens cluster s { s with
        nodes := s.nodes ++ [⟨name, ipv4, ipv6, .pending, enabled, role, false, false⟩] } := by
      refine ⟨rfl, fun ip member => mem_sendingIps.mpr ((mem_sendingIps.mp member).imp_left ?_)⟩
      rintro ⟨other, there, sends, inside⟩
      rcases List.mem_append.mp there with before | last
      · exact ⟨other, before, sends, inside⟩
      · obtain rfl := List.mem_singleton.mp last
        cases sends
    exact added.trans (syncNodeRecords_lessens done)

theorem saveNode_follows {ipv4 : Ip} {ipv6 : Option Ip} {role : Role} {enabled : Bool}
    (done : saveNode site cluster s name ipv4 ipv6 role enabled = some s') :
    Follows site cluster s s' := by
  obtain ⟨before, here, done⟩ := Option.bind_eq_some_iff.mp done
  obtain ⟨middle, moved, done⟩ := Option.bind_eq_some_iff.mp done
  have follows : Follows site cluster s middle := by
    rw [moveNode] at moved
    by_cases differs : before.ipv4Address ≠ ipv4 ∨ before.ipv6Address ≠ ipv6
    · rw [if_pos differs] at moved
      obtain ⟨synced, -, spf⟩ := Option.bind_eq_some_iff.mp moved
      exact Or.inr (syncSpfRecord_covers spf)
    · rw [if_neg differs] at moved
      obtain rfl := Option.some.inj moved
      rw [not_or, not_not, not_not] at differs
      obtain ⟨rfl, rfl⟩ := differs
      exact Or.inl (setNode_lessens fun sends => ⟨before, (node_mem here).1, sends, rfl⟩)
  split at done
  · exact Or.inr (drainNode_covers done)
  · obtain rfl := Option.some.inj done
    exact follows

theorem deleteNode_covers (done : deleteNode site cluster s name = some s') : Covers site cluster s' := by
  obtain ⟨node, -, done⟩ := Option.bind_eq_some_iff.mp done
  split at done
  · cases done
  · split at done
    · cases done
    · obtain ⟨middle, -, spf⟩ := Option.bind_eq_some_iff.mp done
      exact syncSpfRecord_covers spf

/-! #### Gateways and pools -/

theorem setGateway_lessens (gateway : EgressGateway) : Lessens cluster s (s.setGateway name gateway) :=
  ⟨rfl, fun _ member => member⟩

theorem syncPools_lessens {pools : List EgressIPPool} (done : syncPools site cluster s pools = some s') :
    Lessens cluster s s' := by
  induction pools generalizing s with
  | nil =>
    obtain rfl := Option.some.inj done
    exact Lessens.refl s
  | cons pool rest ih =>
    rw [syncPools, List.foldlM_cons] at done
    obtain ⟨middle, first, later⟩ := Option.bind_eq_some_iff.mp done
    have one : Lessens cluster s middle :=
      reconcile_lessens first (show "Egress IP Pool" ≠ "Stalwart Cluster" by decide)
    exact one.trans (ih later)

theorem setGatewayStatus_lessens {status : GatewayStatus}
    (done : setGatewayStatus site cluster s name status = some s') : Lessens cluster s s' := by
  obtain ⟨gateway, -, done⟩ := Option.bind_eq_some_iff.mp done
  split at done
  · exact (setGateway_lessens _).trans (syncPools_lessens done)
  · obtain rfl := Option.some.inj done
    exact setGateway_lessens _

theorem checkGateway_lessens (done : checkGateway site cluster s name health = some s') :
    Lessens cluster s s' := by
  obtain ⟨gateway, -, done⟩ := Option.bind_eq_some_iff.mp done
  split at done
  · obtain rfl := Option.some.inj done
    exact Lessens.refl s
  · split at done
    · split at done
      · exact setGatewayStatus_lessens done
      · obtain rfl := Option.some.inj done
        exact Lessens.refl s
    · split at done
      · obtain rfl := Option.some.inj done
        exact setGateway_lessens _
      · obtain rfl := Option.some.inj done
        exact Lessens.refl s

theorem syncGatewayRecords_lessens (done : syncGatewayRecords site cluster s name = some s') :
    Lessens cluster s s' := by
  obtain ⟨gateway, -, done⟩ := Option.bind_eq_some_iff.mp done
  exact reconcile_lessens done (show "Egress Gateway" ≠ "Stalwart Cluster" by decide)

theorem insertGateway_lessens {ipv4 : Ip} {enabled : Bool}
    (done : insertGateway site cluster s name ipv4 enabled = some s') : Lessens cluster s s' := by
  rw [insertGateway] at done
  split at done
  · cases done
  · exact (setGateway_lessens _).trans (syncGatewayRecords_lessens done)

theorem saveGateway_lessens {ipv4 : Ip} {enabled : Bool}
    (done : saveGateway site cluster s name ipv4 enabled = some s') : Lessens cluster s s' := by
  obtain ⟨before, -, done⟩ := Option.bind_eq_some_iff.mp done
  obtain ⟨middle, moved, done⟩ := Option.bind_eq_some_iff.mp done
  have follows : Lessens cluster s middle := by
    rw [moveGateway] at moved
    split at moved
    · obtain ⟨own, written, resynced⟩ := Option.bind_eq_some_iff.mp moved
      have own := (setGateway_lessens _).trans (syncGatewayRecords_lessens written)
      exact own.trans (syncPools_lessens resynced)
    · obtain rfl := Option.some.inj moved
      exact setGateway_lessens _
  split at done
  · exact follows.trans (setGatewayStatus_lessens done)
  · obtain rfl := Option.some.inj done
    exact follows

theorem deleteGateway_lessens (done : deleteGateway site s name = some s') : Lessens cluster s s' := by
  obtain ⟨gateway, -, done⟩ := Option.bind_eq_some_iff.mp done
  split at done
  · cases done
  · split at done
    · cases done
    · obtain ⟨middle, reconciled, done⟩ := Option.bind_eq_some_iff.mp done
      obtain rfl := Option.some.inj done
      have rows : Lessens cluster s middle :=
        reconcile_lessens reconciled (show "Egress Gateway" ≠ "Stalwart Cluster" by decide)
      exact rows.trans ⟨rfl, fun _ member => member⟩

theorem savePool_follows {pool : EgressIPPool} (done : savePool site cluster s pool = some s') :
    Follows site cluster s s' := by
  rcases savePool_cases done with ⟨before, found, -, same, rfl⟩ | ⟨middle, -, spf⟩
  · refine Or.inl ⟨rfl, fun ip member => mem_sendingIps.mpr ((mem_sendingIps.mp member).imp_right ?_)⟩
    rintro ⟨other, there, row, inside, address⟩
    rcases mem_storePool there with rfl | ⟨stays, -⟩
    · exact ⟨before, found, row, same.2.mem_iff.mpr inside, address⟩
    · exact ⟨other, stays, row, inside, address⟩
  · exact Or.inr (syncSpfRecord_covers spf)

theorem deletePool_covers {pool : EgressIPPool} (done : deletePool site cluster s pool = some s') :
    Covers site cluster s' := by
  rw [deletePool] at done
  split at done
  · obtain ⟨middle, -, spf⟩ := Option.bind_eq_some_iff.mp done
    exact syncSpfRecord_covers spf
  · cases done

end Frames

/-! ### A node that is made `Provisioned` again -/

section Rejoin

variable {health : Health} {node new : StalwartNode}

theorem mem_setNode_of_ne {other : StalwartNode} (there : other ∈ s.nodes)
    (differs : other.name ≠ new.name) : other ∈ (s.setNode new).nodes :=
  List.mem_map.mpr ⟨other, there, if_neg differs⟩

theorem setNode_setNode {first : StalwartNode} (same : first.name = new.name) :
    (s.setNode first).setNode new = s.setNode new := by
  have twice : (s.nodes.map fun other => if other.name = first.name then first else other).map
      (fun other => if other.name = new.name then new else other) =
      s.nodes.map fun other => if other.name = new.name then new else other := by
    rw [List.map_map]
    refine List.map_congr_left fun other _ => ?_
    by_cases named : other.name = first.name
    · simp only [Function.comp_apply, if_pos named, if_pos same, if_pos (named.trans same)]
    · simp only [Function.comp_apply, if_neg named]
  show ({ s with nodes := (s.nodes.map _).map _ } : State) = { s with nodes := s.nodes.map _ }
  rw [twice]

/-- **The check after a write of `Provisioned` settles the node**: it is activated, with a sync, or
failed. -/
def settles (s : State) (node : StalwartNode) (health : Health) : Bool :=
  if s.clusterStatus = .bootstrapping ∧ node.isBootstrapNode then
    match health with
    | .ready => s.bootstrapNode.any fun name =>
        name = node.name ∨ (s.node name).any fun other => other.status = .provisioned
    | .notReady expired => expired ∧ s.bootstrapNode = some node.name
  else s.clusterStatus = .active ∧ health ≠ .notReady false

variable (cluster) in
/-- The published rows stay, and the node's addresses, no others, start to send. -/
structure Joins (node : StalwartNode) (s s' : State) : Prop where
  rows : managedRows s'.table.rows (clusterOwner cluster) = managedRows s.table.rows (clusterOwner cluster)
  sends : ∀ ip ∈ sendingIps s', ip ∈ sendingIps s ∨ ip ∈ node.addresses
  joined : ∀ ip ∈ node.addresses, ip ∈ sendingIps s'

theorem joins_of_lessens (less : Lessens cluster (s.setNodeStatus node .provisioned) s')
    (stays : { node with status := .provisioned } ∈ s'.nodes) : Joins cluster node s s' := by
  refine ⟨less.rows, fun ip member => ?_, fun ip inside => ?_⟩
  · rcases mem_sendingIps.mp (less.sends ip member) with ⟨other, there, sends, inside⟩ | pool
    · rcases mem_setNode there with rfl | ⟨before, -⟩
      · exact Or.inr inside
      · exact Or.inl (mem_sendingIps.mpr (Or.inl ⟨other, before, sends, inside⟩))
    · exact Or.inl (mem_sendingIps.mpr (Or.inr pool))
  · exact mem_sendingIps.mpr (Or.inl ⟨_, stays, rfl, inside⟩)

variable (here : s.node name = some node)
include here

theorem node_provisioned :
    (s.setNodeStatus node .provisioned).node name = some { node with status := .provisioned } := by
  rw [State.setNodeStatus, node_setNode, here, Option.map_some, if_pos rfl]

theorem mem_provisioned :
    { node with status := .provisioned } ∈ (s.setNodeStatus node .provisioned).nodes :=
  (node_mem (node_provisioned here)).1

theorem fail_lessens : Lessens cluster s
    ((s.setNodeStatus node .provisioned).setNodeStatus { node with status := .provisioned } .failed) := by
  have once : (s.setNodeStatus node .provisioned).setNodeStatus { node with status := .provisioned } .failed =
      s.setNode { node with status := .failed } := setNode_setNode rfl
  rw [once]
  exact setNode_idle rfl

theorem finishBootstrap_rejoins
    (done : finishBootstrap site cluster (s.setNodeStatus node .provisioned) health = some s')
    (booting : s.clusterStatus = .bootstrapping ∧ node.isBootstrapNode) :
    if settles s node health then Follows site cluster s s' else Joins cluster node s s' := by
  have unchanged : Joins cluster node s (s.setNodeStatus node .provisioned) :=
    joins_of_lessens (Lessens.refl _) (mem_provisioned here)
  have named := (node_mem here).2
  rcases finishBootstrap_cases done with ⟨first, found, known, there, provisioned, ends⟩ | ⟨nobody, rfl⟩
  · replace known : s.bootstrapNode = some first := known
    have before : first = node.name ∨ (s.node first).any (fun other => other.status = .provisioned) := by
      by_cases own : first = node.name
      · exact Or.inl own
      · rw [node_setNodeStatus_of_ne own] at there
        refine Or.inr ?_
        rw [there]
        exact decide_eq_true provisioned
    rcases ends with ⟨rfl, covers⟩ | ⟨rfl, rfl⟩ | ⟨rfl, rfl⟩
    · have settled : settles s node .ready = true := by
        simp [settles, booting, known, before]
      rw [if_pos settled]
      exact Or.inr covers
    · by_cases own : first = node.name
      · have settled : settles s node (.notReady true) = true := by
          simp [settles, booting, known, own]
        rw [if_pos settled]
        rw [own, named, node_provisioned here] at there
        obtain rfl := Option.some.inj there
        exact Or.inl ((fail_lessens here).trans ⟨rfl, fun _ member => member⟩)
      · have unsettled : settles s node (.notReady true) = false := by
          simp [settles, booting, known, own]
        rw [if_neg (by rw [unsettled]; exact nofun)]
        have failed : Lessens cluster (s.setNodeStatus node .provisioned)
            ((s.setNodeStatus node .provisioned).setNodeStatus found .failed) := setNode_idle rfl
        refine joins_of_lessens (failed.trans ⟨rfl, fun _ member => member⟩) ?_
        refine mem_setNode_of_ne (mem_provisioned here) fun same => own ?_
        exact ((node_mem there).2.symm.trans same.symm)
    · have unsettled : settles s node (.notReady false) = false := by
        simp [settles, booting]
      rw [if_neg (by rw [unsettled]; exact nofun)]
      exact unchanged
  · have own : s.bootstrapNode ≠ some node.name := by
      intro known
      rw [← named] at here
      exact nobody node.name _ known (node_provisioned here) rfl
    have unsettled : settles s node health = false := by
      rw [← Bool.not_eq_true]
      intro settled
      cases health with
      | ready =>
        rw [settles.eq_def, if_pos booting] at settled
        obtain ⟨first, known, either⟩ := (Option.any_eq_true _ _).mp settled
        rcases of_decide_eq_true either with rfl | other
        · exact own known
        · obtain ⟨found, there, provisioned⟩ := (Option.any_eq_true _ _).mp other
          have differs : first ≠ node.name := by
            rintro rfl
            exact own known
          refine nobody first found known ?_ (of_decide_eq_true provisioned)
          rw [node_setNodeStatus_of_ne differs]
          exact there
      | notReady expired =>
        rw [settles.eq_def, if_pos booting] at settled
        exact own (of_decide_eq_true settled).2
    rw [if_neg (by rw [unsettled]; exact nofun)]
    exact unchanged

theorem checkNode_rejoins
    (done : checkNode site cluster (s.setNodeStatus node .provisioned) name health = some s') :
    if settles s node health then Follows site cluster s s' else Joins cluster node s s' := by
  have unchanged : Joins cluster node s (s.setNodeStatus node .provisioned) :=
    joins_of_lessens (Lessens.refl _) (mem_provisioned here)
  obtain ⟨found, there, done⟩ := Option.bind_eq_some_iff.mp done
  obtain rfl := Option.some.inj ((node_provisioned here).symm.trans there)
  split at done
  · rename_i booting
    exact finishBootstrap_rejoins here done booting
  · rename_i running
    replace running : ¬ (s.clusterStatus = .bootstrapping ∧ node.isBootstrapNode) := running
    by_cases active : s.clusterStatus = .active
    · replace done := (if_neg (not_not.mpr active)).symm.trans done
      cases health with
      | ready =>
        have settled : settles s node .ready = true := by simp [settles, active]
        rw [if_pos settled]
        exact Or.inr (activateNode_covers done)
      | notReady expired =>
        replace done := Option.some.inj done
        cases expired with
        | true =>
          have settled : settles s node (.notReady true) = true := by simp [settles, active]
          rw [if_pos settled, ← done]
          exact Or.inl (fail_lessens here)
        | false =>
          have unsettled : settles s node (.notReady false) = false := by simp [settles]
          rw [if_neg (by rw [unsettled]; exact nofun), ← done]
          exact unchanged
    · have unsettled : settles s node health = false := by simp [settles, running, active]
      replace done := (if_pos active).symm.trans done
      rw [if_neg (by rw [unsettled]; exact nofun), ← Option.some.inj done]
      exact unchanged

end Rejoin

/-! ### Runs -/

section Runs

variable {node : StalwartNode} {action : Action} {ip : Ip}

variable (site cluster) in
/-- **Every address that sends is listed**, by records that are the SPF records of some addresses. -/
structure SpfHeld (s : State) : Prop where
  published : ∃ ips, Publishes site cluster s ips
  listed : ∀ ip ∈ sendingIps s, Listed site cluster s ip

/-- The node that the step makes `Provisioned` without a sync, and what its check finds. -/
def rejoins (s : State) : Action → Option (StalwartNode × Health)
  | .restoreNode name health => (s.node name).map fun node => (node, health)
  | .afterUpgrade name health => (s.node name).map fun node => (node, health)
  | _ => none

variable (site cluster) in
/-- **A node that is made `Provisioned` again is settled by the check, or listed already.** -/
def spfFollows (s : State) (action : Action) : Prop :=
  ∀ entry ∈ rejoins s action, settles s entry.1 entry.2 = true ∨
    ∀ ip ∈ entry.1.addresses, Listed site cluster s ip

theorem listed_congr (rows : managedRows s'.table.rows (clusterOwner cluster) =
    managedRows s.table.rows (clusterOwner cluster)) : Listed site cluster s' ip ↔ Listed site cluster s ip := by
  delta Listed
  simp only [HasText, rows]

theorem SpfHeld.follows (held : SpfHeld site cluster s) (follows : Follows site cluster s s') :
    SpfHeld site cluster s' := by
  rcases follows with less | ⟨ips, publishes, covered⟩
  · obtain ⟨ips, publishes⟩ := held.published
    refine ⟨⟨ips, publishes.congr less.rows⟩, fun ip member => ?_⟩
    exact (listed_congr less.rows).mpr (held.listed ip (less.sends ip member))
  · exact ⟨⟨ips, publishes⟩, fun ip member => publishes.listed (covered ip member)⟩

theorem Joins.listed (joins : Joins cluster node s s')
    (listed : ∀ ip ∈ sendingIps s', Listed site cluster s' ip) :
    ∀ ip ∈ node.addresses, Listed site cluster s ip :=
  fun ip inside => (listed_congr joins.rows).mp (listed ip (joins.joined ip inside))

theorem SpfHeld.joins (held : SpfHeld site cluster s) (joins : Joins cluster node s s')
    (before : ∀ ip ∈ node.addresses, Listed site cluster s ip) : SpfHeld site cluster s' := by
  obtain ⟨ips, publishes⟩ := held.published
  refine ⟨⟨ips, publishes.congr joins.rows⟩, fun ip member => (listed_congr joins.rows).mpr ?_⟩
  exact (joins.sends ip member).elim (held.listed ip) (before ip)

theorem rejoin_held {health : Health} (held : SpfHeld site cluster s) (here : s.node name = some node)
    (rejoined : rejoins s action = some (node, health))
    (done : checkNode site cluster (s.setNodeStatus node .provisioned) name health = some s') :
    (spfFollows site cluster s action → SpfHeld site cluster s') ∧
      ((∀ ip ∈ sendingIps s', Listed site cluster s' ip) → spfFollows site cluster s action) := by
  have checked := checkNode_rejoins here done
  by_cases settled : settles s node health = true
  · rw [if_pos settled] at checked
    refine ⟨fun _ => held.follows checked, fun _ entry member => Or.inl ?_⟩
    obtain rfl := Option.some.inj (rejoined.symm.trans member)
    exact settled
  · rw [if_neg settled] at checked
    refine ⟨fun follows => held.joins checked ?_, fun listed entry member => Or.inr ?_⟩
    · exact (follows _ rejoined).resolve_left settled
    · obtain rfl := Option.some.inj (rejoined.symm.trans member)
      exact checked.listed listed

theorem spfFollows_of_none (nobody : rejoins s action = none) : spfFollows site cluster s action := by
  intro entry member
  rw [nobody] at member
  exact absurd member (Option.not_mem_none entry)

theorem step_held (held : SpfHeld site cluster s) (done : step site cluster s action = some s') :
    (spfFollows site cluster s action → SpfHeld site cluster s') ∧
      ((∀ ip ∈ sendingIps s', Listed site cluster s' ip) → spfFollows site cluster s action) := by
  have follow (follows : Follows site cluster s s') : SpfHeld site cluster s' := held.follows follows
  have lessen (less : Lessens cluster s s') : SpfHeld site cluster s' := follow (Or.inl less)
  have cover (covers : Covers site cluster s') : SpfHeld site cluster s' := follow (Or.inr covers)
  have idle (nobody : rejoins s action = none) : spfFollows site cluster s action :=
    spfFollows_of_none nobody
  cases action with
  | insertNode name ipv4 ipv6 role enabled => exact ⟨fun _ => lessen (insertNode_lessens done), fun _ => idle rfl⟩
  | saveNode name ipv4 ipv6 role enabled => exact ⟨fun _ => follow (saveNode_follows done), fun _ => idle rfl⟩
  | deleteNode name => exact ⟨fun _ => cover (deleteNode_covers done), fun _ => idle rfl⟩
  | provisionNode name => exact ⟨fun _ => lessen (provisionNode_lessens done), fun _ => idle rfl⟩
  | afterProvision name health => exact ⟨fun _ => follow (afterProvision_follows done), fun _ => idle rfl⟩
  | afterProvisionFailed name exhausted =>
    exact ⟨fun _ => lessen (afterProvisionFailed_lessens done), fun _ => idle rfl⟩
  | upgradeNode name => exact ⟨fun _ => follow (upgradeNode_follows done), fun _ => idle rfl⟩
  | afterUpgrade name health =>
    obtain ⟨node, here, checked⟩ := Option.bind_eq_some_iff.mp done
    exact rejoin_held held here (congrArg (Option.map fun node => (node, health)) here) checked
  | afterUpgradeFailed name =>
    obtain ⟨node, -, rfl⟩ := Option.map_eq_some_iff.mp done
    exact ⟨fun _ => lessen (setNode_idle rfl), fun _ => idle rfl⟩
  | checkNode name health => exact ⟨fun _ => follow (checkNode_follows done), fun _ => idle rfl⟩
  | drainNode name => exact ⟨fun _ => cover (drainNode_covers done), fun _ => idle rfl⟩
  | restoreNode name health =>
    obtain ⟨node, here, restored⟩ := Option.bind_eq_some_iff.mp done
    split at restored
    · cases restored
    · exact rejoin_held held here (congrArg (Option.map fun node => (node, health)) here) restored
  | finishBootstrap health => exact ⟨fun _ => follow (finishBootstrap_follows done), fun _ => idle rfl⟩
  | enableCluster enabled =>
    refine ⟨fun _ => lessen ?_, fun _ => idle rfl⟩
    rw [step] at done
    split at done
    · obtain rfl := Option.some.inj done
      exact ⟨rfl, fun _ member => member⟩
    · split at done
      · obtain rfl := Option.some.inj done
        exact ⟨rfl, fun _ member => member⟩
      · obtain rfl := Option.some.inj done
        exact Lessens.refl s
  | insertGateway name ipv4 enabled => exact ⟨fun _ => lessen (insertGateway_lessens done), fun _ => idle rfl⟩
  | saveGateway name ipv4 enabled => exact ⟨fun _ => lessen (saveGateway_lessens done), fun _ => idle rfl⟩
  | deleteGateway name => exact ⟨fun _ => lessen (deleteGateway_lessens done), fun _ => idle rfl⟩
  | provisionGateway name => exact ⟨fun _ => lessen (setGatewayStatus_lessens done), fun _ => idle rfl⟩
  | afterGatewayProvision name health =>
    obtain ⟨gateway, -, checked⟩ := Option.bind_eq_some_iff.mp done
    exact ⟨fun _ => lessen ((setGateway_lessens _).trans (checkGateway_lessens checked)), fun _ => idle rfl⟩
  | afterGatewayProvisionFailed name =>
    exact ⟨fun _ => lessen (setGatewayStatus_lessens done), fun _ => idle rfl⟩
  | afterGatewayUpgrade name health =>
    obtain ⟨middle, set, checked⟩ := Option.bind_eq_some_iff.mp done
    exact ⟨fun _ => lessen ((setGatewayStatus_lessens set).trans (checkGateway_lessens checked)),
      fun _ => idle rfl⟩
  | afterGatewayUpgradeFailed name =>
    exact ⟨fun _ => lessen (setGatewayStatus_lessens done), fun _ => idle rfl⟩
  | checkGateway name health => exact ⟨fun _ => lessen (checkGateway_lessens done), fun _ => idle rfl⟩
  | savePool pool => exact ⟨fun _ => follow (savePool_follows done), fun _ => idle rfl⟩
  | deletePool pool => exact ⟨fun _ => cover (deletePool_covers done), fun _ => idle rfl⟩

variable {table : Table} {start : State}

/-- **The published SPF lists every address that sends**, in every run in which a node that is made
`Provisioned` again is settled by the check or listed already; and such a run goes on so exactly with the
steps that meet this. -/
theorem spf_covers_senders (started : insertCluster site cluster table = some start)
    (reached : Reaches (step site cluster) (spfFollows site cluster) start s) :
    SpfHeld site cluster s ∧ ∀ action s', step site cluster s action = some s' →
      ((∀ ip ∈ sendingIps s', Listed site cluster s' ip) ↔ spfFollows site cluster s action) := by
  have first : SpfHeld site cluster start :=
    ⟨⟨_, syncSpfRecord_publishes started⟩, fun _ => (syncSpfRecord_publishes started).listed⟩
  have held : SpfHeld site cluster s := reached.invariant (SpfHeld site cluster) first
    fun here follows taken => (step_held here taken).1 follows
  refine ⟨held, fun action s' taken => ?_⟩
  obtain ⟨keeps, follows⟩ := step_held held taken
  exact ⟨follows, fun meets => (keeps meets).listed⟩

/-! ### A cluster with one node -/

theorem nodeIp_trimmed : strip "192.0.2.1" = "192.0.2.1" := by decide +kernel

def nodeIp : Ip := ⟨"192.0.2.1", nodeIp_trimmed⟩

/-- The node comes up as the cluster's first. -/
def nodeUp : List Action :=
  [.insertNode "n1.mail.eu.io" nodeIp none .full true, .provisionNode "n1.mail.eu.io",
    .afterProvision "n1.mail.eu.io" .ready]

theorem nodeUp_follows (start : State) :
    RunMeets (step oneZone oneCluster) (spfFollows oneZone oneCluster) start nodeUp := by
  refine runMeets_of_forall fun action member s => spfFollows_of_none ?_
  simp only [nodeUp, List.mem_cons, List.not_mem_nil, or_false] at member
  rcases member with rfl | rfl | rfl
  · rfl
  · rfl
  · rfl

/-- It is drained and disabled, and restored before it is ready. -/
def restored : List Action :=
  [.drainNode "n1.mail.eu.io", .drainNode "n1.mail.eu.io", .restoreNode "n1.mail.eu.io" (.notReady false)]

/-- The cluster's records at its `spf` host. -/
def keysAtSpf (s : State) : List (Place × String) :=
  ((managedRows s.table.rows (clusterOwner oneCluster)).map Row.key).filter
    fun key => key.1.host = "spf.mail.eu"

/-- The node is upgraded, and the check activates it; or it is restored before it is ready. -/
theorem nodeUp_ends :
    ∃ start s s' other, insertCluster oneZone oneCluster noRows = some start ∧
      Reaches (step oneZone oneCluster) (spfFollows oneZone oneCluster) start s ∧
      (∀ entry ∈ rejoins s (.afterUpgrade "n1.mail.eu.io" .ready), settles s entry.1 entry.2 = true) ∧
      step oneZone oneCluster s (.afterUpgrade "n1.mail.eu.io" .ready) = some s' ∧ sendingIps s' = [nodeIp] ∧
      run (step oneZone oneCluster) s restored = some other ∧ sendingIps other = [nodeIp] ∧
      keysAtSpf other = [(⟨"io", "spf.mail.eu", .txt⟩, "v=spf1 -all")] := by
  have seen : (insertCluster oneZone oneCluster noRows).bind (fun start =>
      (run (step oneZone oneCluster) start nodeUp).bind fun s =>
        (step oneZone oneCluster s (.afterUpgrade "n1.mail.eu.io" .ready)).bind fun s' =>
          (run (step oneZone oneCluster) s restored).map fun other =>
            (decide (∀ entry ∈ rejoins s (.afterUpgrade "n1.mail.eu.io" .ready),
              settles s entry.1 entry.2 = true), sendingIps s', sendingIps other, keysAtSpf other)) =
      some (true, [nodeIp], [nodeIp], [(⟨"io", "spf.mail.eu", .txt⟩, "v=spf1 -all")]) := by decide +kernel
  obtain ⟨start, started, seen⟩ := Option.bind_eq_some_iff.mp seen
  obtain ⟨s, ends, seen⟩ := Option.bind_eq_some_iff.mp seen
  obtain ⟨s', upgraded, seen⟩ := Option.bind_eq_some_iff.mp seen
  obtain ⟨other, restores, seen⟩ := Option.map_eq_some_iff.mp seen
  obtain ⟨settled, seen⟩ := Prod.mk.inj seen
  obtain ⟨sends, seen⟩ := Prod.mk.inj seen
  obtain ⟨otherSends, texts⟩ := Prod.mk.inj seen
  exact ⟨start, s, s', other, started, reaches_of_run (nodeUp_follows start) ends, of_decide_eq_true settled,
    upgraded, sends, restores, otherSends, texts⟩

theorem spf_covers_senders_upgraded :
    ∃ start s s', insertCluster oneZone oneCluster noRows = some start ∧
      Reaches (step oneZone oneCluster) (spfFollows oneZone oneCluster) start s ∧
      step oneZone oneCluster s (.afterUpgrade "n1.mail.eu.io" .ready) = some s' ∧
      nodeIp ∈ sendingIps s' ∧ Listed oneZone oneCluster s' nodeIp := by
  obtain ⟨start, s, s', -, started, reached, settled, taken, sends, -⟩ := nodeUp_ends
  have follows : spfFollows oneZone oneCluster s (.afterUpgrade "n1.mail.eu.io" .ready) :=
    fun entry member => Or.inl (settled entry member)
  have sending : nodeIp ∈ sendingIps s' := by
    rw [sends]
    exact List.mem_singleton_self _
  have listed := (spf_covers_senders started (reached.next follows taken)).1.listed nodeIp sending
  exact ⟨start, s, s', started, reached, taken, sending, listed⟩

theorem hasMechanism_colon {text mechanism : String} (colon : ':' ∈ mechanism.toList)
    (has : HasMechanism text mechanism) : ':' ∈ text.toList := by
  refine has.subset ?_
  rw [String.toList_append, String.toList_append]
  exact List.mem_append_left _ (List.mem_append_right _ colon)

/-- **A restored node that is not ready yet sends and is in no SPF record**: it was drained and
disabled, which took its address out, and `restore_node` makes it `Provisioned` without a sync. -/
theorem restored_node_unlisted :
    ¬ ∀ (site : Site) (cluster : StalwartCluster) (table : Table) (start s : State),
      insertCluster site cluster table = some start →
      Reaches (step site cluster) anyStep start s → SpfHeld site cluster s := by
  intro always
  obtain ⟨start, before, -, s, started, reached, -, -, -, restores, sends, texts⟩ := nodeUp_ends
  have reached : Reaches (step oneZone oneCluster) anyStep start s :=
    (reached.mono fun _ _ _ => trivial).trans
      (reaches_of_run (runMeets_of_forall fun _ _ _ => trivial) restores)
  have held := always oneZone oneCluster noRows start s started reached
  obtain ⟨target, has, lists⟩ := held.listed nodeIp (by rw [sends]; exact List.mem_singleton_self _)
  have host : oneZone.lower ("spf." ++ oneCluster.host) = "spf.mail.eu" := by decide +kernel
  rw [HasText, host] at has
  have only : (⟨"io", "spf.mail.eu", .txt⟩, target) ∈ keysAtSpf s :=
    List.mem_filter.mpr ⟨has, decide_eq_true rfl⟩
  rw [texts, List.mem_singleton] at only
  obtain rfl := (Prod.mk.inj only).2
  have colon : ':' ∉ "v=spf1 -all".toList := by decide
  rcases lists with own | ⟨child, text, included, -⟩
  · exact colon (hasMechanism_colon (by decide) own)
  · refine colon (hasMechanism_colon ?_ included)
    rw [String.toList_append]
    exact List.mem_append_left _ (by decide)

end Runs

end SuiteCloud.Mail.Cluster.Records
