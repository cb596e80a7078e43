/-
**Every job of the fleet meets its contract.**

* `Passed` — what a step of `provision` leaves behind for good; `Passed.mono` — nothing takes it away.
* `Ends` — how a script ends: sane, with nothing taken away, and a value that says something.
* `create_meets`, … `installSuite_meets` — the steps; `runStep_meets`; `provision_meets`.
* `job_meets` — **every job**.
-/

import SuiteCloud.Hosting.Machines.Fleet

namespace SuiteCloud.Hosting.Machines

open SuiteCloud.Library Script Contract

variable {lower : String → String} {world now before : World Row Call} {held : Held Row} {name code : String}
  {doc : Doc} {α β : Type}

/-! ## What is there for good -/

/-- Nothing is taken from the rows. -/
structure Advances (before now : World Row Call) : Prop where
  servers : ∀ name vm, server before name = some vm → ∃ after, server now name = some after ∧ Becomes vm after
  regions : ∀ code zone, zones before code = some zone → zones now code = some zone

theorem Advances.trans {first second third : World Row Call} (one : Advances first second)
    (two : Advances second third) : Advances first third where
  servers name vm here := by
    obtain ⟨next, there, becomes⟩ := one.servers name vm here
    obtain ⟨last, found, becomes'⟩ := two.servers name next there
    exact ⟨last, found, becomes.trans becomes'⟩
  regions code zone here := two.regions code zone (one.regions code zone here)

theorem Grows.advances (grows : Grows before now) : Advances before now := ⟨grows.servers, grows.regions⟩

theorem advances_merged (others : (fleet lower).Others held before now) :
    Advances (before.merged held) (now.merged held) where
  servers name vm here := by
    obtain ⟨same, -⟩ | ⟨free, free'⟩ := others.seen_or (.server name)
    · exact ⟨vm, same.trans here, .refl vm⟩
    · obtain ⟨after, there, becomes⟩ := others.keeps.servers name vm (free'.symm.trans here)
      exact ⟨after, free.trans there, becomes⟩
  regions code zone here := by
    obtain ⟨same, -⟩ | ⟨free, free'⟩ := others.seen_or (.region code)
    · rw [zones, World.rows_merged, same]
      exact here
    · rw [zones, World.rows_merged, free'] at here
      rw [zones, World.rows_merged, free]
      exact others.keeps.regions code zone here

/-- **What a step of `provision` leaves behind.** -/
def Passed (world : World Row Call) (name : String) : Step → Prop
  | .create => ∃ vm, server world name = some vm ∧ isSet vm.centralAction
  | .accept => ∃ vm, server world name = some vm ∧ isSet vm.centralResourceId
  | .boot => ∃ vm, server world name = some vm ∧ vm.bootedAt.isSome
  | .verifyHost => ∃ vm, server world name = some vm ∧ (zones world vm.region).isSome
  | .installSuite => True

theorem Passed.mono {step : Step} (passed : Passed before name step) (advances : Advances before now) :
    Passed now name step := by
  cases step with
  | create =>
    obtain ⟨vm, here, created⟩ := passed
    obtain ⟨after, there, becomes⟩ := advances.servers name vm here
    exact ⟨after, there, becomes.action created⟩
  | accept =>
    obtain ⟨vm, here, accepted⟩ := passed
    obtain ⟨after, there, becomes⟩ := advances.servers name vm here
    exact ⟨after, there, by rw [becomes.resource accepted]; exact accepted⟩
  | boot =>
    obtain ⟨vm, here, booted⟩ := passed
    obtain ⟨after, there, becomes⟩ := advances.servers name vm here
    exact ⟨after, there, becomes.booted booted⟩
  | verifyHost =>
    obtain ⟨vm, here, served⟩ := passed
    obtain ⟨after, there, becomes⟩ := advances.servers name vm here
    obtain ⟨zone, served⟩ := Option.isSome_iff_exists.mp served
    refine ⟨after, there, ?_⟩
    rw [becomes.region, advances.regions _ _ served]
    rfl
  | installSuite => trivial

/-- What a document in memory says of its row, for good. -/
structure Known (world : World Row Call) (doc : Doc) (vm : VirtualMachine) : Prop where
  here : server world doc.name = some vm
  region : vm.region = doc.vm.region
  action : isSet doc.vm.centralAction → isSet vm.centralAction
  resource : isSet doc.vm.centralResourceId → isSet vm.centralAction
  booted : doc.vm.bootedAt.isSome ∨ doc.vm.status = .running → vm.bootedAt.isSome

theorem Known.mono {vm : VirtualMachine} (known : Known before doc vm) (advances : Advances before now) :
    ∃ after, Known now doc after := by
  obtain ⟨after, there, becomes⟩ := advances.servers doc.name vm known.here
  exact ⟨after, there, becomes.region.trans known.region, becomes.action ∘ known.action,
    becomes.action ∘ known.resource, becomes.booted ∘ known.booted⟩

/-- A row that is read is known. -/
theorem Known.read {vm : VirtualMachine} (kept : Kept lower world) (here : server world name = some vm) :
    Known world ⟨name, vm⟩ vm where
  here := here
  region := rfl
  action := id
  resource := (kept.servers name vm here).created
  booted := by
    rintro (booted | running)
    · exact booted
    · exact (kept.servers name vm here).booted running

/-! ## How scripts end -/

/-- **An end**: sane, with nothing taken away since, and a value that says something. -/
def Ends (lower : String → String) (before : World Row Call) (post : α → World Row Call → Held Row → Prop) :
    Except Raised α → World Row Call → Held Row → Prop
  | .ok value, now, held => (fleet lower).Sane now held ∧ Grows before now ∧ post value now held
  | .error _, now, held => (fleet lower).Sane now held ∧ Grows before now

theorem server_hold_self (row : Option VirtualMachine) :
    server (now.merged (held.hold (.server name) row)) name = row := by
  rw [World.merged_hold, server_set_self]

theorem ends_from {script : Job α} {post : α → World Row Call → Held Row → Prop} (grows : Grows before world)
    (ends : (fleet lower).wp script (Ends lower world post) world held) :
    (fleet lower).wp script (Ends lower before post) world held := by
  refine wp_mono (fun outcome now held' ends => ?_) ends
  cases outcome with
  | ok value => exact ⟨ends.1, grows.trans ends.2.1, ends.2.2⟩
  | error error => exact ⟨ends.1, grows.trans ends.2⟩

theorem ends_bind {script : Job α} {after : α → Job β} {post : α → World Row Call → Held Row → Prop}
    {post' : β → World Row Call → Held Row → Prop} (grows : Grows before world)
    (first : (fleet lower).wp script (Ends lower world post) world held)
    (later : ∀ value now held', (fleet lower).Sane now held' → Grows before now → post value now held' →
      (fleet lower).wp (after value) (Ends lower before post') now held') :
    (fleet lower).wp (script >>= after) (Ends lower before post') world held := by
  rw [wp_bind]
  refine wp_mono (fun outcome now held' ends => ?_) (ends_from grows first)
  cases outcome with
  | ok value => exact later value now held' ends.1 ends.2.1 ends.2.2
  | error error => exact ends

/-- A change that touches nothing the contract looks at. -/
def IsQuiet (change : VirtualMachine → VirtualMachine) : Prop :=
  ∀ vm, Becomes vm (change vm) ∧ ∀ zones name, Proper zones name vm → Proper zones name (change vm)

/-! ### What scripts are made of -/

/-- What the contract looks at of a server. -/
def core (vm : VirtualMachine) :=
  (serverArguments vm, vm.status, vm.centralAction, vm.centralResourceId, vm.bootedAt, vm.readySince,
    vm.hostVerified,
    vm.wildcardZone)

theorem isQuiet_of_core {change : VirtualMachine → VirtualMachine} (same : ∀ vm, core (change vm) = core vm) :
    IsQuiet change := by
  intro vm
  have same := same vm
  simp only [core, Prod.mk.injEq] at same
  obtain ⟨arguments, status, action, resource, booted, ready, verified, zone⟩ := same
  have region : (change vm).region = vm.region := congrArg ServerArguments.region arguments
  have key : (change vm).requestKey = vm.requestKey := congrArg ServerArguments.requestKey arguments
  refine ⟨⟨region, key, action ▸ id, fun _ => resource, booted ▸ id, ready ▸ id, fun _ => arguments⟩,
    fun _ _ proper => ⟨key.trans proper.requestKey, ?_, ?_, ?_, ?_⟩⟩
  · rw [verified, zone, region]
    exact proper.verified
  · rw [resource, action]
    exact proper.created
  · rw [status, booted]
    exact proper.booted
  · rw [ready, resource, booted, region]
    exact proper.ready

theorem error_isQuiet (error : Option String) : IsQuiet fun vm => { vm with error := error } :=
  isQuiet_of_core fun _ => rfl

theorem failed_isQuiet (error : Option String) :
    IsQuiet fun vm => { vm with status := .failed, error := error } := fun _ =>
  ⟨⟨rfl, rfl, id, fun _ => rfl, id, id, fun _ => rfl⟩, fun _ _ proper =>
    ⟨proper.requestKey, proper.verified, proper.created, ServerStatus.noConfusion, proper.ready⟩⟩

section

variable {Q : Except Raised β → World Row Call → Held Row → Prop}

theorem asks_meets {call : Call} {after : Answer call → Job β} (silent : call.creates = false)
    (sane : (fleet lower).Sane world held)
    (goesOn : ∀ now, (fleet lower).Others held world now → (fleet lower).Sane now held →
      ∀ answer, Promised lower call answer → (fleet lower).wp (after answer) Q now held) :
    (fleet lower).wp (asks call >>= after) Q world held := by
  rw [wp_bind]
  exact sane.ask fleet_steady (fleet_silent silent) goesOn

theorem reply_holds {answer : Except Raised β}
    (raised : ∀ error, answer = .error error → Q (.error error) world held)
    (goesOn : ∀ value, answer = .ok value → Q (.ok value) world held) :
    (fleet lower).wp (reply answer) Q world held := by
  cases answer with
  | ok value => exact goesOn value rfl
  | error error => exact raised error rfl

theorem reply_meets {answer : Except Raised α} {after : α → Job β}
    (raised : ∀ error, answer = .error error → Q (.error error) world held)
    (goesOn : ∀ value, answer = .ok value → (fleet lower).wp (after value) Q world held) :
    (fleet lower).wp (reply answer >>= after) Q world held := by
  cases answer with
  | ok value => exact goesOn value rfl
  | error error => exact raised error rfl

theorem dbSet_holds {change : VirtualMachine → VirtualMachine}
    {R : Except Raised Doc → World Row Call → Held Row → Prop}
    (sane : (fleet lower).Sane world held)
    (proper : ∀ now vm, (fleet lower).Others held world now → (fleet lower).Sane now held →
      server (now.merged held) doc.name = some vm → Proper (zones (now.merged held)) doc.name vm →
      Becomes vm (change vm) ∧ Proper (zones (now.merged held)) doc.name (change vm))
    (goesOn : ∀ now held', (fleet lower).Others held world now → (fleet lower).Sane now held' →
      held' = held.hold (.server doc.name) ((server (now.merged held) doc.name).map change) →
      Advances (world.merged held) (now.merged held') → R (.ok ⟨doc.name, change doc.vm⟩) now held') :
    (fleet lower).wp (doc.dbSet change) R world held := by
  rw [Doc.dbSet, wp_bind]
  have changes : ∀ now, (fleet lower).Others held world now → (fleet lower).Sane now held → _ :=
    fun now others sane => sane.merged.change fun vm here shown => proper now vm others sane here shown
  refine sane.write fleet_steady (fun now others sane => ?_) fun now others sane' => ?_
  · exact sane.set (changes now others sane).1 (changes now others sane).2
  · have sane := fleet_steady others sane
    refine goesOn now _ others sane' rfl ?_
    have grows := (changes now others sane).2
    rw [← World.merged_hold] at grows
    exact (advances_merged others).trans grows.advances

theorem dbSet_meets {change : VirtualMachine → VirtualMachine} {after : Doc → Job β}
    (sane : (fleet lower).Sane world held)
    (proper : ∀ now vm, (fleet lower).Others held world now → (fleet lower).Sane now held →
      server (now.merged held) doc.name = some vm → Proper (zones (now.merged held)) doc.name vm →
      Becomes vm (change vm) ∧ Proper (zones (now.merged held)) doc.name (change vm))
    (goesOn : ∀ now, (fleet lower).Others held world now →
      (fleet lower).Sane now (held.hold (.server doc.name) ((server (now.merged held) doc.name).map change)) →
      (fleet lower).wp (after ⟨doc.name, change doc.vm⟩) Q now
        (held.hold (.server doc.name) ((server (now.merged held) doc.name).map change))) :
    (fleet lower).wp (doc.dbSet change >>= after) Q world held := by
  rw [wp_bind]
  refine dbSet_holds sane proper fun now held' others sane same _ => ?_
  subst same
  exact goesOn now others sane

theorem dbSet_quiet {change : VirtualMachine → VirtualMachine} {after : Doc → Job β} (quiet : IsQuiet change)
    (sane : (fleet lower).Sane world held)
    (goesOn : ∀ now held', (fleet lower).Others held world now → (fleet lower).Sane now held' →
      (fleet lower).wp (after ⟨doc.name, change doc.vm⟩) Q now held') :
    (fleet lower).wp (doc.dbSet change >>= after) Q world held :=
  dbSet_meets sane (fun _ vm _ _ _ proper => ⟨(quiet vm).1, (quiet vm).2 _ _ proper⟩)
    fun now others sane => goesOn now _ others sane

theorem stop_meets {message : String} {after : Unit → Job β} (sane : (fleet lower).Sane world held)
    (goesOn : ∀ now held', (fleet lower).Others held world now → (fleet lower).Sane now held' →
      (fleet lower).wp (after ()) Q now held') :
    (fleet lower).wp (stop doc message >>= after) Q world held := by
  rw [wp_bind, stop]
  exact dbSet_quiet (error_isQuiet _) sane goesOn

end

theorem ends_pure {post : α → World Row Call → Held Row → Prop} {value : α}
    (sane : (fleet lower).Sane now held) (grows : Grows before now) (holds : post value now held) :
    (fleet lower).wp (pure value) (Ends lower before post) now held := ⟨sane, grows, holds⟩

theorem ends_raise {post : α → World Row Call → Held Row → Prop} {error : Raised}
    (sane : (fleet lower).Sane now held) (grows : Grows before now) :
    (fleet lower).wp (raise error) (Ends lower before post) now held := ⟨sane, grows⟩

theorem ends_error {post : α → World Row Call → Held Row → Prop} {error : Raised}
    (sane : (fleet lower).Sane now held) (grows : Grows before now) :
    Ends lower before post (.error error) now held := ⟨sane, grows⟩

/-! ## The steps -/

/-- The document is the row, which is locked and not written yet. -/
structure Fresh (world : World Row Call) (held : Held Row) (doc : Doc) : Prop where
  held : held (.server doc.name) = some (some doc.vm)
  here : server world doc.name = some doc.vm

theorem Fresh.others (fresh : Fresh world held doc) (others : (fleet lower).Others held world now) :
    Fresh now held doc :=
  ⟨fresh.held, (others.rows (.server doc.name) (by rw [fresh.held]; rfl)).trans fresh.here⟩

theorem Fresh.merged (fresh : Fresh world held doc) : server (world.merged held) doc.name = some doc.vm :=
  World.seen_of_some fresh.held

theorem Kept.asks_create (kept : Kept lower world) {vm : VirtualMachine} (here : server world name = some vm)
    (unset : isSet vm.centralAction = false) :
    Kept lower (world.asked (.createServer (serverArguments vm))) ∧
      Grows world (world.asked (.createServer (serverArguments vm))) := by
  have key : (serverArguments vm).requestKey = keyOf name := (kept.servers name vm here).requestKey
  have either : ∀ {arguments}, Call.createServer arguments ∈
      world.calls ++ [Call.createServer (serverArguments vm)] →
      .createServer arguments ∈ world.calls ∨ arguments = serverArguments vm := by
    intro arguments asked
    obtain asked | asked := List.mem_append.mp asked
    · exact .inl asked
    · exact .inr (Call.createServer.inj (List.mem_singleton.mp asked))
  refine ⟨⟨kept.servers, kept.regions, fun other old arguments there unset' asked same => ?_,
    fun one two first second same => ?_, fun arguments asked => ?_⟩,
    ⟨fun _ vm here => ⟨vm, here, .refl vm⟩, fun _ _ => id, fun _ => ⟨Nat.le_refl _, fun _ => rfl⟩,
      fun other old there created => ?_⟩⟩
  · obtain asked | rfl := either asked
    · exact kept.sent other old arguments there unset' asked same
    · obtain rfl := keyOf_injective (key.symm.trans same)
      rw [show old = vm from Option.some.inj (there.symm.trans here)]
  · obtain first | rfl := either first
    · obtain second | rfl := either second
      · exact kept.same one two first second same
      · exact kept.sent name vm one here unset first (same.trans key)
    · obtain second | rfl := either second
      · exact (kept.sent name vm two here unset second (same.symm.trans key)).symm
      · rfl
  · obtain asked | rfl := either asked
    · exact kept.known arguments asked
    · exact ⟨name, vm, here, key⟩
  · have foreign : Call.isCreationOf other (.createServer (serverArguments vm)) = false := by
      refine decide_eq_false fun same => ?_
      obtain rfl := keyOf_injective (key.symm.trans same)
      rw [show old = vm from Option.some.inj (there.symm.trans here), unset] at created
      cases created
    rw [World.calls_asked, creations_append, foreign]
    exact List.append_nil _

theorem create_meets (sane : (fleet lower).Sane world held) (fresh : Fresh world held doc) :
    (fleet lower).wp (create doc) (Ends lower world fun done now held =>
      done → Passed (now.merged held) doc.name .create) world held := by
  unfold create
  split
  · next created =>
    exact ends_pure sane (.refl _) fun _ => ⟨doc.vm, fresh.merged, created⟩
  next unset =>
  have unset := Bool.eq_false_iff.mpr unset
  rw [wp_bind]
  intro now others
  have fresh := fresh.others others
  have sane := fleet_steady others sane
  obtain ⟨kept, grows⟩ := sane.holds.asks_create fresh.here unset
  obtain ⟨merged, -⟩ := sane.merged.asks_create fresh.merged unset
  refine ⟨kept, grows, fun answer promised => ?_⟩
  have sane : (fleet lower).Sane (now.asked (.createServer (serverArguments doc.vm))) held := by
    refine ⟨kept, merged, ?_⟩
    exact ⟨sane.keeps.servers, sane.keeps.regions, sane.keeps.stamps, fun _ _ _ _ => rfl⟩
  have grows := others.keeps.trans grows
  refine reply_meets (fun _ _ => ends_error sane grows) fun action answered => ?_
  have named : isSet (some action) = true := by
    subst answered
    exact decide_eq_true promised
  refine asks_meets rfl sane fun now others' sane answer _ => ?_
  have grows := grows.trans others'.keeps
  have fresh : Fresh now held doc := ⟨fresh.held, (others'.rows _ (by rw [fresh.held]; rfl)).trans fresh.here⟩
  cases answer with
  | some other =>
    refine dbSet_quiet (failed_isQuiet _) sane fun now held' others sane => ?_
    exact ends_pure sane (grows.trans others.keeps) Bool.noConfusion
  | none =>
    refine dbSet_meets sane (fun now vm others sane here proper => ?_) fun now others sane => ?_
    · refine ⟨⟨rfl, rfl, fun _ => named, fun _ => rfl, id, id, fun unset => ?_⟩,
        ⟨proper.requestKey, proper.verified, fun _ => named, proper.booted, proper.ready⟩⟩
      cases named.symm.trans unset
    · refine ends_pure sane (grows.trans others.keeps) fun _ =>
        ⟨{ doc.vm with centralAction := some action }, ?_, named⟩
      rw [server_hold_self, (fresh.others others).merged]
      rfl

theorem accept_meets (sane : (fleet lower).Sane world held) (fresh : Fresh world held doc)
    (created : isSet doc.vm.centralAction) :
    (fleet lower).wp (accept doc) (Ends lower world fun done now held =>
      done → Passed (now.merged held) doc.name .accept) world held := by
  unfold accept
  split
  · next accepted => exact ends_pure sane (.refl _) fun _ => ⟨doc.vm, fresh.merged, accepted⟩
  next unset =>
  refine asks_meets rfl sane fun now others sane answer _ => ?_
  have grows := others.keeps
  have fresh := fresh.others others
  refine reply_meets (fun _ _ => ends_error sane grows) fun status _ => ?_
  split
  · next accepted =>
    refine dbSet_meets sane (fun now' vm others sane here proper => ?_) fun now' others sane => ?_
    · obtain rfl := Option.some.inj (here.symm.trans (fresh.others others).merged)
      refine ⟨⟨rfl, rfl, id, fun known => absurd known unset, id, id, fun _ => rfl⟩,
        ⟨proper.requestKey, proper.verified, fun _ => created, ServerStatus.noConfusion, fun ready => ?_⟩⟩
      exact absurd (proper.ready ready).1 unset
    · refine ends_pure sane (grows.trans others.keeps) fun _ =>
        ⟨{ doc.vm with centralResourceId := status.resourceId, status := .provisioning }, ?_, accepted⟩
      rw [server_hold_self, (fresh.others others).merged]
      rfl
  split
  · refine dbSet_quiet (failed_isQuiet _) sane fun now' held' others sane => ?_
    exact ends_pure sane (grows.trans others.keeps) Bool.noConfusion
  · exact ends_pure sane grows Bool.noConfusion

theorem applied_proper {vm : VirtualMachine} {server : Server} {time : ℕ} {zones : String → Option String}
    (created : isSet vm.centralAction)
    (booted : doc.vm.bootedAt.isSome → vm.bootedAt.isSome) (proper : Proper zones name vm) :
    Becomes vm (applied doc.vm server time vm) ∧ Proper zones name (applied doc.vm server time vm) := by
  have boots : vm.bootedAt.isSome → (applied doc.vm server time vm).bootedAt.isSome := by
    intro booted
    unfold applied
    split
    · rfl
    · exact booted
  refine ⟨⟨rfl, rfl, id, fun _ => rfl, boots, id, fun unset => absurd created (Bool.eq_false_iff.mp unset)⟩,
    ⟨proper.requestKey, proper.verified, proper.created, fun running => ?_, fun ready => ?_⟩⟩
  · cases shown : server.status with
    | none =>
      simp only [applied, shown, Option.getD_none] at running
      exact boots (proper.booted running)
    | some status =>
      simp only [applied, shown, Option.getD_some] at running
      subst running
      cases before : doc.vm.bootedAt with
      | none => simp [applied, shown, before]
      | some at_ => exact boots (booted (by rw [before]; rfl))
  · obtain ⟨accepted, booted, served⟩ := proper.ready ready
    exact ⟨accepted, boots booted, served⟩

theorem applyServer_holds {server : Server} {vm : VirtualMachine}
    {R : Except Raised Doc → World Row Call → Held Row → Prop} (sane : (fleet lower).Sane world held)
    (known : Known (world.merged held) doc vm) (accepted : isSet doc.vm.centralResourceId)
    (goesOn : ∀ now held' time, (fleet lower).Others held world now → (fleet lower).Sane now held' →
      held' = held.hold (.server doc.name)
        ((Machines.server (now.merged held) doc.name).map (applied doc.vm server time)) →
      Advances (world.merged held) (now.merged held') →
      R (.ok ⟨doc.name, applied doc.vm server time doc.vm⟩) now held') :
    (fleet lower).wp (applyServer doc server) R world held := by
  rw [applyServer]
  refine asks_meets rfl sane fun now others sane time _ => ?_
  refine dbSet_holds sane
    (fun now' vm' others' sane here proper => ?_) fun now' held' others' sane same advances =>
    goesOn now' held' time (others.trans others') sane same ((advances_merged others).trans advances)
  obtain ⟨after, known⟩ := known.mono (advances_merged (others.trans others'))
  obtain rfl := Option.some.inj (here.symm.trans known.here)
  exact applied_proper (known.resource accepted) (fun booted => known.booted (.inl booted)) proper

theorem boot_meets (sane : (fleet lower).Sane world held) (fresh : Fresh world held doc)
    (accepted : isSet doc.vm.centralResourceId) :
    (fleet lower).wp (boot doc) (Ends lower world fun done now held =>
      done → Passed (now.merged held) doc.name .boot) world held := by
  have known : Known (world.merged held) doc doc.vm := .read sane.merged fresh.merged
  unfold boot
  split
  · next booted =>
    refine ends_pure sane (.refl _) fun _ => ⟨doc.vm, fresh.merged, known.booted (.inr ?_)⟩
    exact (of_decide_eq_true booted).1
  next =>
  refine asks_meets rfl sane fun now others sane answer _ => ?_
  have grows := others.keeps
  refine reply_meets (fun _ _ => ends_error sane grows) fun registry _ => ?_
  split
  · next server found =>
    rw [wp_bind]
    obtain ⟨vm, known⟩ := known.mono (advances_merged others)
    refine applyServer_holds sane known accepted fun now' held' time others' sane same _ => ?_
    subst same
    refine ends_pure sane (grows.trans others'.keeps) fun booted => ?_
    have fresh := (fresh.others others).others others'
    refine ⟨applied doc.vm server time doc.vm, ?_, ?_⟩
    · rw [server_hold_self, fresh.merged]
      rfl
    · refine (sane.merged.servers doc.name _ ?_).booted (of_decide_eq_true booted).1
      rw [server_hold_self, fresh.merged]
      rfl
  · exact ends_pure sane grows Bool.noConfusion

/-! ### The host -/

/-- The job has the row, with what `verify_host` reads of the document. -/
structure Owned (held : Held Row) (doc : Doc) (vm : VirtualMachine) : Prop where
  held : held (.server doc.name) = some (some vm)
  region : vm.region = doc.vm.region
  verified : vm.hostVerified = doc.vm.hostVerified

variable {vm : VirtualMachine}

theorem Owned.merged (owned : Owned held doc vm) : server (world.merged held) doc.name = some vm :=
  World.seen_of_some owned.held

theorem noneYet_meets {error : Raised} {post : Option α → World Row Call → Held Row → Prop}
    (sane : (fleet lower).Sane now held) (grows : Grows before now) (holds : post none now held) :
    (fleet lower).wp (noneYet error) (Ends lower before post) now held := by
  unfold noneYet
  split
  · exact ends_pure sane grows holds
  · exact ends_raise sane grows

theorem askPilot_meets (sane : (fleet lower).Sane world held) :
    (fleet lower).wp (askPilot doc) (Ends lower world fun result now held' =>
      held' = held ∧ (fleet lower).Others held world now ∧ ∀ domains settings zone,
        result = some (domains, settings) → (zoneOf domains).filter (· ≠ "") = some zone →
          validZone lower (some zone) = some zone) world held := by
  unfold askPilot
  rw [wp_catching]
  have handled : ∀ {now error}, (fleet lower).Sane now held → (fleet lower).Others held world now →
      (fleet lower).wp (noneYet error : Job (Option (List String × PilotSettings)))
        (Ends lower world fun result now held' =>
        held' = held ∧ (fleet lower).Others held world now ∧ ∀ domains settings zone,
          result = some (domains, settings) → (zoneOf domains).filter (· ≠ "") = some zone →
            validZone lower (some zone) = some zone) now held :=
    fun sane others => noneYet_meets sane others.keeps ⟨rfl, others, fun _ _ _ none => by cases none⟩
  refine asks_meets rfl sane fun now others sane answer promised => ?_
  refine reply_meets (fun error _ => handled sane others) fun domains answered => ?_
  refine asks_meets rfl sane fun now' others' sane answer' _ => ?_
  have others := others.trans others'
  refine reply_meets (fun error _ => handled sane others) fun settings _ => ?_
  rw [wp_pure, follows_ok]
  refine ends_pure sane others.keeps ⟨rfl, others, fun _ _ zone same named => ?_⟩
  cases same
  subst answered
  exact promised zone named

theorem ensureLetsencryptEmail_meets {settings : PilotSettings} (sane : (fleet lower).Sane world held) :
    (fleet lower).wp (ensureLetsencryptEmail doc settings) (Ends lower world fun _ now held' =>
      held' = held ∧ (fleet lower).Others held world now) world held := by
  unfold ensureLetsencryptEmail
  refine asks_meets rfl sane fun now others sane config _ => ?_
  split
  · exact ends_pure sane others.keeps ⟨rfl, others⟩
  rw [wp_catching]
  have handled : ∀ {now error}, (fleet lower).Sane now held → (fleet lower).Others held world now →
      (fleet lower).wp (keepsSettings settings error) (Ends lower world fun _ now held' =>
        held' = held ∧ (fleet lower).Others held world now) now held := by
    intro now error sane others
    unfold keepsSettings
    split
    · exact ends_pure sane others.keeps ⟨rfl, others⟩
    · exact ends_pure sane others.keeps ⟨rfl, others⟩
    · exact ends_raise sane others.keeps
  refine asks_meets rfl sane fun now' others' sane answer _ => ?_
  have others := others.trans others'
  refine reply_meets (fun error _ => handled sane others) fun _ _ => ?_
  refine asks_meets rfl sane fun now others' sane answer _ => ?_
  have others := others.trans others'
  refine reply_holds (fun error _ => handled sane others) fun _ _ => ?_
  exact ends_pure sane others.keeps ⟨rfl, others⟩

theorem validZone_ne (lower : String → String) (zone : Option String) : validZone lower zone ≠ some "" := by
  unfold validZone
  simp only
  split
  · exact nofun
  · next full => exact fun same => full (Option.some.inj same)

theorem hold_region (sane : (fleet lower).Sane world held) {row : Region}
    (stamped : stamp (world.merged held) code < row.modified)
    (same : ∀ zone, zones (world.merged held) code = some zone → row.proxyZone = some zone)
    (valid : ∀ zone, row.proxyZone = some zone → validZone lower (some zone) = some zone) :
    (fleet lower).Sane world (held.hold (.region code) row) := by
  obtain ⟨kept, grows⟩ := sane.merged.region stamped same valid
  exact sane.set kept grows

theorem learnProxyZone_meets {region zone : String} (sane : (fleet lower).Sane world held)
    (valid : validZone lower (some zone) = some zone) :
    (fleet lower).wp (learnProxyZone region zone) (Ends lower world fun learned now held' =>
      zones (now.merged held') region = some learned ∧ ∀ name, held' (.server name) = held (.server name))
      world held := by
  unfold learnProxyZone
  rw [wp_bind]
  refine sane.lock fleet_steady fun now others sane => ?_
  have same : ∀ name, held.hold (.region region) (now.seen held (.region region)) (.server name) =
      held (.server name) := fun name => Function.update_of_ne Key.noConfusion ..
  rw [follows_ok]
  split
  · next known =>
    refine ends_pure sane others.keeps ⟨?_, same⟩
    obtain ⟨learned, found⟩ := Option.isSome_iff_exists.mp (Option.isSome_of_any known)
    rw [zones, World.rows_merged, World.seen_hold_self, found]
    rfl
  next unset =>
  rw [wp_bind]
  refine sane.write fleet_steady (fun now' others' sane => ?_) fun now' others' sane => ?_
  · refine hold_region sane ?_ (fun other found => absurd ?_ unset) fun other same => ?_
    · rw [stamp, World.rows_merged]
      exact Nat.lt_succ_self _
    · have found' := found
      rw [zones, World.rows_merged, World.seen_hold_self] at found'
      rw [found']
      refine decide_eq_true fun empty => validZone_ne lower (some other) ?_
      rw [sane.merged.regions _ _ found, empty]
    · cases same
      exact valid
  · rw [follows_ok]
    refine ends_pure sane (others.keeps.trans others'.keeps) ⟨?_, fun name => ?_⟩
    · rw [zones, World.rows_merged, World.seen_hold_self]
    · rw [Held.hold, Function.update_of_ne Key.noConfusion]
      exact same name

theorem hostProblem_meets {zone : Option String} {settings : PilotSettings}
    (sane : (fleet lower).Sane world held)
    (valid : ∀ name, zone.filter (· ≠ "") = some name → validZone lower (some name) = some name) :
    (fleet lower).wp (hostProblem vm zone settings) (Ends lower world fun problem now held' =>
      (∀ name, held' (.server name) = held (.server name)) ∧
        (problem = none → ∃ name, zone = some name ∧ (vm.region ++ ".").toList <+: name.toList ∧
          zones (now.merged held') vm.region = some name)) world held := by
  unfold hostProblem
  split
  · exact ends_pure sane (.refl _) ⟨fun _ => rfl, fun none => by cases none⟩
  next name named =>
  split
  · exact ends_pure sane (.refl _) ⟨fun _ => rfl, fun none => by cases none⟩
  next starts =>
  have starts := Classical.not_not.mp starts
  refine ends_bind (.refl _)
    (learnProxyZone_meets sane (valid name named)) fun learned now held' sane grows ends => ?_
  obtain ⟨served, same⟩ := ends
  split
  · exact ends_pure sane grows ⟨same, fun none => by cases none⟩
  next agrees =>
  split
  · exact ends_pure sane grows ⟨same, fun none => by cases none⟩
  · refine ends_pure sane grows ⟨same, fun _ => ⟨name, ?_, starts, ?_⟩⟩
    · exact (Option.filter_eq_some_iff.mp named).1
    · rw [Classical.not_not.mp agrees]
      exact served

theorem verifyHost_meets (sane : (fleet lower).Sane world held) (owned : Owned held doc vm) :
    (fleet lower).wp (verifyHost doc) (Ends lower world fun done now held =>
      done → Passed (now.merged held) doc.name .verifyHost) world held := by
  unfold verifyHost
  split
  · next verified =>
    refine ends_pure sane (.refl _) fun _ => ⟨vm, owned.merged, ?_⟩
    rw [← owned.verified] at verified
    obtain ⟨zone, -, -, served⟩ := (sane.merged.servers doc.name vm owned.merged).verified verified
    rw [served]
    rfl
  next unverified =>
  rw [← owned.verified] at unverified
  refine ends_bind (.refl _) (askPilot_meets sane) fun result now held' sane grows ends => ?_
  obtain ⟨same, others, valid⟩ := ends
  have owned : Owned held' doc vm := same ▸ owned
  split
  · refine asks_meets rfl sane fun now' others' sane time _ => ?_
    have grows := grows.trans others'.keeps
    split
    · exact stop_meets sane fun now held' others sane => ends_pure sane
        (grows.trans others.keeps) Bool.noConfusion
    · exact ends_pure sane grows Bool.noConfusion
  next domains settings =>
  refine ends_bind grows (ensureLetsencryptEmail_meets sane) fun settings now' held'' sane' grows' ends => ?_
  obtain ⟨rfl, -⟩ := ends
  refine dbSet_meets sane' (fun now vm' others sane here proper => ?_) fun now others sane => ?_
  · obtain rfl := Option.some.inj (here.symm.trans owned.merged)
    exact ⟨⟨rfl, rfl, id, fun _ => rfl, id, id, fun _ => rfl⟩,
      ⟨proper.requestKey, fun verified => absurd verified unverified, proper.created, proper.booted,
        proper.ready⟩⟩
  rw [owned.merged] at sane ⊢
  have grows := grows'.trans others.keeps
  refine ends_bind grows (hostProblem_meets sane fun name => valid domains _ name rfl)
    fun problem now held' sane grows ends => ?_
  obtain ⟨same, served⟩ := ends
  split
  · exact stop_meets sane fun now held' others sane => ends_pure sane
      (grows.trans others.keeps) Bool.noConfusion
  have locked := (same doc.name).trans (Function.update_self ..)
  obtain ⟨zone, named, starts, served⟩ := served rfl
  refine dbSet_meets sane (fun now vm others sane here proper => ?_) fun now others sane => ?_
  · obtain rfl := Option.some.inj ((World.seen_of_some locked).symm.trans here)
    obtain ⟨-, there⟩ := advances_merged others
    exact ⟨⟨rfl, rfl, id, fun _ => rfl, id, id, fun _ => rfl⟩,
      ⟨proper.requestKey, fun _ => ⟨zone, named, by simpa only [owned.region] using starts,
        by simpa only [owned.region] using there _ _ served⟩, proper.created, proper.booted, proper.ready⟩⟩
  · have here : server (now.merged held') doc.name = _ := World.seen_of_some locked
    rw [here] at sane ⊢
    refine ends_pure sane (grows.trans others.keeps) fun _ => ⟨_, server_hold_self _, ?_⟩
    obtain ⟨zone, -, -, served⟩ := (sane.merged.servers doc.name _ (server_hold_self _)).verified rfl
    exact Option.isSome_of_eq_some served

/-! ### The Suite app -/

theorem commit_meets {Q : Except Raised β → World Row Call → Held Row → Prop} {after : Unit → Job β}
    (sane : (fleet lower).Sane world held)
    (goesOn : ∀ now, (fleet lower).Others held world now → (fleet lower).Sane now held →
      (fleet lower).Sane (now.merged held) (fun _ => none) → Grows world (now.merged held) →
      (fleet lower).wp (after ()) Q (now.merged held) fun _ => none) :
    (fleet lower).wp (commit >>= after) Q world held := by
  rw [wp_bind]
  exact sane.commit fleet_steady fun now others sane committed =>
    goesOn now others sane committed (others.keeps.trans sane.keeps)

theorem markInstalled_meets {app : App} (sane : (fleet lower).Sane world held) :
    (fleet lower).wp (markInstalled doc app) (Ends lower world fun _ _ _ => True) world held := by
  unfold markInstalled
  exact dbSet_quiet (isQuiet_of_core fun _ => rfl) sane fun now held' others sane =>
    ends_pure sane others.keeps trivial

theorem poll_meets {task : String} (again : ℕ) (sane : (fleet lower).Sane world held) :
    (fleet lower).wp (poll doc task again) (Ends lower world fun _ _ _ => True) world held := by
  induction again generalizing world with
  | zero =>
    exact asks_meets rfl sane fun now others sane answer _ =>
      reply_holds (fun _ _ => ends_error sane others.keeps) fun _ _ => ends_pure sane others.keeps trivial
  | succ again ih =>
    refine asks_meets rfl sane fun now others sane answer _ =>
      reply_meets (fun _ _ => ends_error sane others.keeps) fun status _ => ?_
    split
    · exact ends_pure sane others.keeps trivial
    · exact ends_from others.keeps (ih sane)

theorem waitForTask_meets {task : String} (sane : (fleet lower).Sane world held) :
    (fleet lower).wp (waitForTask doc task) (Ends lower world fun _ _ _ => True) world held := by
  unfold waitForTask
  refine commit_meets sane fun now others _ sane grows => ?_
  exact asks_meets rfl sane fun now' others' sane answer _ =>
    ends_from (grows.trans others'.keeps) (poll_meets answer sane)

theorem awaitInstall_meets {task : String} (sane : (fleet lower).Sane world held) :
    (fleet lower).wp (awaitInstall doc task) (Ends lower world fun _ _ _ => True) world held := by
  unfold awaitInstall
  refine ends_bind (.refl _) (waitForTask_meets sane) fun status now held sane grows _ => ?_
  split
  · exact ends_pure sane grows trivial
  split
  · refine asks_meets rfl sane fun now others sane answer _ =>
      reply_meets (fun _ _ => ends_error sane (grows.trans others.keeps)) fun output _ => ?_
    exact dbSet_quiet (isQuiet_of_core fun _ => rfl) sane fun now' held' others' sane =>
      ends_pure sane ((grows.trans others.keeps).trans others'.keeps) trivial
  · refine asks_meets rfl sane fun now others sane answer _ =>
      reply_meets (fun _ _ => ends_error sane (grows.trans others.keeps)) fun apps _ => ?_
    split
    · exact dbSet_quiet (isQuiet_of_core fun _ => rfl) sane fun now' held' others' sane =>
        ends_pure sane ((grows.trans others.keeps).trans others'.keeps) trivial
    · exact ends_from (grows.trans others.keeps) (markInstalled_meets sane)

theorem installSuite_meets (sane : (fleet lower).Sane world held) :
    (fleet lower).wp (installSuite doc) (Ends lower world fun _ _ _ => True) world held := by
  unfold installSuite
  split
  · exact ends_pure sane (.refl _) trivial
  split
  · exact awaitInstall_meets sane
  refine asks_meets rfl sane fun now others sane answer _ =>
    reply_meets (fun _ _ => ends_error sane others.keeps) fun apps _ => ?_
  have grows := others.keeps
  split
  · exact ends_from grows (markInstalled_meets sane)
  refine asks_meets rfl sane fun now others sane config _ => ?_
  have grows := grows.trans others.keeps
  refine asks_meets rfl sane fun now others sane answer _ =>
    reply_meets (fun _ _ => ends_error sane (grows.trans others.keeps)) fun task _ => ?_
  have grows := grows.trans others.keeps
  exact dbSet_quiet (isQuiet_of_core fun _ => rfl) sane fun now' held' others' sane =>
    ends_from (grows.trans others'.keeps) (awaitInstall_meets sane)

/-! ## The provision job -/

/-- The steps that a step relies on. -/
def Step.needs : Step → List Step
  | accept => [create]
  | boot => [accept]
  | create | verifyHost | installSuite => []

theorem work_meets {step : Step} (sane : (fleet lower).Sane world held) (fresh : Fresh world held doc)
    (passed : ∀ needed ∈ step.needs, Passed world doc.name needed) :
    (fleet lower).wp (step.work doc) (Ends lower world fun done now held =>
      done → Passed (now.merged held) doc.name step) world held := by
  cases step with
  | create => exact create_meets sane fresh
  | accept =>
    obtain ⟨vm, here, created⟩ := passed .create List.mem_cons_self
    rw [fresh.here] at here
    cases here
    exact accept_meets sane fresh created
  | boot =>
    obtain ⟨vm, here, accepted⟩ := passed .accept List.mem_cons_self
    rw [fresh.here] at here
    cases here
    exact boot_meets sane fresh accepted
  | verifyHost => exact verifyHost_meets sane ⟨fresh.held, rfl, rfl⟩
  | installSuite =>
    refine wp_mono (fun outcome now held ends => ?_) (installSuite_meets sane)
    cases outcome with
    | ok value => exact ⟨ends.1, ends.2.1, fun _ => trivial⟩
    | error error => exact ends

theorem runStep_meets {step : Step} (sane : (fleet lower).Sane world held) (fresh : Fresh world held doc)
    (passed : ∀ needed ∈ step.needs, Passed world doc.name needed) :
    (fleet lower).wp (runStep step doc) (Ends lower world fun done now held =>
      held = (fun _ => none) ∧ (done → Passed now doc.name step)) world held := by
  have finish : ∀ {done : Bool} {now held}, (fleet lower).Sane now held → Grows world now →
      (done → Passed (now.merged held) doc.name step) →
      (fleet lower).wp (commit >>= fun _ => (pure done : Job Bool)) (Ends lower world fun done now held =>
        held = (fun _ => none) ∧ (done → Passed now doc.name step)) now held := by
    intro done now held sane grows passes
    refine commit_meets sane fun now' others sane' committed grows' => ?_
    exact ends_pure committed
      (grows.trans grows') ⟨rfl, fun done => (passes done).mono (advances_merged others)⟩
  have stopped : ∀ (message : String) {now held}, (fleet lower).Sane now held → Grows world now →
      (fleet lower).wp (stop doc message >>= fun _ => (pure false : Job Bool))
        ((fleet lower).follows (fun done => commit >>= fun _ => pure done) .raises
          (Ends lower world fun done now held => held = (fun _ => none) ∧ (done → Passed now doc.name step)))
        now held :=
    fun message _ _ sane grows => stop_meets sane fun now held others sane =>
      finish sane (grows.trans others.keeps) Bool.noConfusion
  unfold runStep
  rw [wp_bind, wp_catching]
  refine wp_mono (fun outcome now held ends => ?_) (work_meets sane fresh passed)
  cases outcome with
  | ok done => exact finish ends.1 ends.2.1 ends.2.2
  | error error =>
    obtain ⟨sane, grows⟩ := ends
    cases error with
    | pilotNotReady => exact finish sane grows Bool.noConfusion
    | unavailable => exact finish sane grows Bool.noConfusion
    | rejected message remediation => exact stopped _ sane grows
    | pilotError => exact stopped _ sane.reset grows
    | other => exact stopped _ sane.reset grows

theorem provisionFrom_cons {step : Step} {later : List Step} (sane : (fleet lower).Sane world fun _ => none)
    (passed : ∀ needed ∈ step.needs, Passed world name needed)
    (goesOn : ∀ now, (fleet lower).Sane now (fun _ => none) → Grows world now → Passed now name step →
      (fleet lower).wp (provisionFrom name later) (fun _ _ _ => True) now fun _ => none) :
    (fleet lower).wp (provisionFrom name (step :: later)) (fun _ _ _ => True) world fun _ => none := by
  unfold provisionFrom
  rw [wp_bind]
  refine sane.lock fleet_steady fun now others sane => ?_
  rw [follows_ok]
  cases found : now.seen (fun _ => none) (.server name) with
  | none => trivial
  | some vm =>
    rw [found] at sane
    have fresh : Fresh now (Held.hold (fun _ => none) (.server name) (some vm)) ⟨name, vm⟩ :=
      ⟨Function.update_self .., found⟩
    rw [loaded, wp_bind, wp_pure, follows_ok]
    split
    · trivial
    have needs : ∀ needed ∈ step.needs, Passed now name needed := fun needed member =>
      (passed needed member).mono others.keeps.advances
    rw [wp_bind]
    refine wp_mono (fun outcome later held ends => ?_) (runStep_meets sane fresh needs)
    cases outcome with
    | error error => trivial
    | ok done =>
      obtain ⟨sane, grows, rfl, passes⟩ := ends
      rw [follows_ok]
      split
      · next done => exact goesOn later sane (others.keeps.trans grows) (passes done)
      · trivial

theorem provisionFrom_nil (sane : (fleet lower).Sane world fun _ => none)
    (accepted : Passed world name .accept)
    (booted : Passed world name .boot) (verified : Passed world name .verifyHost) :
    (fleet lower).wp (provisionFrom name []) (fun _ _ _ => True) world fun _ => none := by
  unfold provisionFrom
  rw [wp_bind]
  refine sane.read fleet_steady fun now others sane => ?_
  rw [follows_ok]
  cases found : now.seen (fun _ => none) (.server name) with
  | none => trivial
  | some vm =>
    rw [loaded, wp_bind, wp_pure, follows_ok]
    have finish : ∀ {now : World Row Call} {held}, (fleet lower).Sane now held →
        (fleet lower).wp (commit : Job Unit) (fun _ _ _ => True) now held := fun sane =>
      sane.commit fleet_steady fun _ _ _ _ => trivial
    split
    · refine asks_meets rfl sane fun now' others' sane time _ => ?_
      refine dbSet_meets sane (fun later vm others'' sane here proper => ?_) fun later others'' sane =>
        finish sane
      have advances : Advances world later :=
        (others.keeps.trans (others'.keeps.trans others''.keeps)).advances
      have rows : ∀ {vm'}, server later name = some vm' → vm' = vm := fun there =>
        Option.some.inj (there.symm.trans here)
      refine ⟨⟨rfl, rfl, id, fun _ => rfl, id, fun _ => rfl, fun _ => rfl⟩,
        ⟨proper.requestKey, proper.verified, proper.created, proper.booted, fun _ => ⟨?_, ?_, ?_⟩⟩⟩
      · obtain ⟨vm', there, known⟩ := accepted.mono advances
        rwa [rows there] at known
      · obtain ⟨vm', there, known⟩ := booted.mono advances
        rwa [rows there] at known
      · obtain ⟨vm', there, known⟩ := verified.mono advances
        rwa [rows there] at known
    · exact finish sane

theorem provision_meets (sane : (fleet lower).Sane world fun _ => none) :
    (fleet lower).wp (provision name) (fun _ _ _ => True) world fun _ => none := by
  refine provisionFrom_cons sane (List.forall_mem_nil _) fun now sane _ created => ?_
  refine provisionFrom_cons sane (List.forall_mem_singleton.mpr created) fun now sane _ accepted => ?_
  refine provisionFrom_cons sane (List.forall_mem_singleton.mpr accepted) fun now sane grows booted => ?_
  have accepted := accepted.mono grows.advances
  refine provisionFrom_cons sane (List.forall_mem_nil _) fun now sane grows verified => ?_
  have booted := booted.mono grows.advances
  have accepted := accepted.mono grows.advances
  refine provisionFrom_cons sane (List.forall_mem_nil _) fun now sane grows _ => ?_
  have advances := grows.advances
  exact provisionFrom_nil sane (accepted.mono advances) (booted.mono advances) (verified.mono advances)

/-! ## The fleet -/

theorem load_meets {Q : Except Raised β → World Row Call → Held Row → Prop} {after : Doc → Job β}
    (sane : (fleet lower).Sane world held)
    (raised : ∀ now, (fleet lower).Others held world now → (fleet lower).Sane now held →
      Q (.error .other) now held)
    (goesOn : ∀ now vm, (fleet lower).Others held world now → (fleet lower).Sane now held →
      Known (now.merged held) ⟨name, vm⟩ vm → (fleet lower).wp (after ⟨name, vm⟩) Q now held) :
    (fleet lower).wp (read (Key.server name) >>= fun row => loaded name row >>= after) Q world held := by
  rw [wp_bind]
  refine sane.read fleet_steady fun now others sane => ?_
  rw [follows_ok]
  cases found : now.seen held (.server name) with
  | none => exact raised now others sane
  | some vm => exact goesOn now vm others sane (.read sane.merged found)

/-- Every document is known. -/
def AllKnown (world : World Row Call) (docs : List Doc) : Prop := ∀ doc ∈ docs, ∃ vm, Known world doc vm

theorem AllKnown.mono {docs : List Doc} (known : AllKnown before docs) (advances : Advances before now) :
    AllKnown now docs := fun doc member =>
  let ⟨_, known⟩ := known doc member
  known.mono advances

theorem loadAll_meets (names : List String) (sane : (fleet lower).Sane world held) :
    (fleet lower).wp (loadAll names) (Ends lower world fun docs now held' => held' = held ∧
      (fleet lower).Others held world now ∧ AllKnown (now.merged held) docs) world held := by
  induction names generalizing world with
  | nil => exact ends_pure sane (.refl _) ⟨rfl, .refl sane.holds, List.forall_mem_nil _⟩
  | cons name names ih =>
    refine load_meets sane
      (fun now others sane => ends_error sane others.keeps) fun now vm others sane known => ?_
    refine ends_bind others.keeps (ih sane) fun docs now' held' sane' grows ends => ?_
    obtain ⟨rfl, others', all⟩ := ends
    exact ends_pure sane' grows ⟨rfl, others.trans others',
      List.forall_mem_cons.mpr ⟨known.mono (advances_merged others'), all⟩⟩

theorem terminated_isQuiet (error : Option String) :
    IsQuiet fun vm => { vm with status := .terminated, enabled := false, error := error } := fun _ =>
  ⟨⟨rfl, rfl, id, fun _ => rfl, id, id, fun _ => rfl⟩, fun _ _ proper =>
    ⟨proper.requestKey, proper.verified, proper.created, ServerStatus.noConfusion, proper.ready⟩⟩

theorem refreshOne_meets {registry : List Server} {markMissing : Bool} (sane : (fleet lower).Sane world held)
    (known : Known (world.merged held) doc vm) :
    (fleet lower).wp (refreshOne registry markMissing doc) (Ends lower world fun _ now held' =>
      Advances (world.merged held) (now.merged held')) world held := by
  unfold refreshOne
  split
  · exact ends_pure sane (.refl _) (Grows.refl _).advances
  next listed =>
  have accepted : isSet doc.vm.centralResourceId = true := by
    by_contra unset
    exact listed (.inl unset)
  split
  · exact applyServer_holds sane known accepted fun now held' time others sane _ advances =>
      ⟨sane, others.keeps, advances⟩
  split
  · exact dbSet_holds sane (fun _ vm _ _ _ proper =>
        ⟨(terminated_isQuiet _ vm).1, (terminated_isQuiet _ vm).2 _ _ proper⟩)
      fun now held' others sane _ advances => ⟨sane, others.keeps, advances⟩
  · exact ends_pure sane (.refl _) (Grows.refl _).advances

theorem refreshAll_meets {registry : List Server} {markMissing : Bool} (docs : List Doc)
    (sane : (fleet lower).Sane world held) (known : AllKnown (world.merged held) docs) :
    (fleet lower).wp (refreshAll registry markMissing docs)
      (Ends lower world fun _ _ _ => True) world held := by
  induction docs generalizing world held with
  | nil => exact ends_pure sane (.refl _) trivial
  | cons doc docs ih =>
    obtain ⟨⟨vm, known⟩, others⟩ := List.forall_mem_cons.mp known
    refine ends_bind (.refl _) (refreshOne_meets sane known) fun doc now held' sane grows advances => ?_
    refine ends_bind grows (ih sane (AllKnown.mono others advances)) fun docs now held sane grows _ => ?_
    exact ends_pure sane grows trivial

theorem askSites_meets (sane : (fleet lower).Sane world held) :
    (fleet lower).wp (askSites doc) (Ends lower world fun _ _ _ => True) world held := by
  unfold askSites
  rw [wp_catching]
  refine asks_meets rfl sane fun now others sane answer _ => ?_
  refine reply_meets (fun error _ => noneYet_meets sane others.keeps trivial) fun names _ => ?_
  rw [wp_pure, follows_ok]
  exact ends_pure sane others.keeps trivial

theorem refreshForeignSites_meets (sane : (fleet lower).Sane world held) :
    (fleet lower).wp (refreshForeignSites doc) (Ends lower world fun _ _ _ => True) world held := by
  unfold refreshForeignSites
  have counted : ∀ {names : Option (List String)} {now held}, (fleet lower).Sane now held → Grows world now →
      (fleet lower).wp (countForeign doc names) (Ends lower world fun _ _ _ => True) now held := by
    intro names now held sane grows
    cases names with
    | none => exact ends_pure sane grows trivial
    | some names =>
      refine asks_meets rfl sane fun now others sane ours _ => ?_
      refine dbSet_quiet (isQuiet_of_core fun _ => rfl) sane fun now' held' others' sane => ?_
      refine sane.commit fleet_steady fun now'' others'' sane committed => ?_
      have kept := ((grows.trans others.keeps).trans others'.keeps).trans others''.keeps
      exact ⟨committed, kept.trans sane.keeps, trivial⟩
  refine ends_bind (.refl _) (askSites_meets sane) fun names now held sane grows _ => counted sane grows

theorem driveOn_meets (sane : (fleet lower).Sane world held) :
    (fleet lower).wp (driveOn doc) (Ends lower world fun _ _ _ => True) world held := by
  unfold driveOn
  split
  · exact asks_meets rfl sane fun now others sane _ _ => ends_pure sane others.keeps trivial
  split
  · exact refreshForeignSites_meets sane
  · exact ends_pure sane (.refl _) trivial

theorem driveAll_meets (docs : List Doc) (sane : (fleet lower).Sane world held) :
    (fleet lower).wp (docs.forM driveOn) (Ends lower world fun _ _ _ => True) world held := by
  induction docs generalizing world held with
  | nil => exact ends_pure sane (.refl _) trivial
  | cons doc docs ih =>
    unfold List.forM
    exact ends_bind (.refl _) (driveOn_meets sane) fun _ now held' sane grows _ => ends_from grows (ih sane)

theorem refreshFleet_meets {markMissing : Bool} (sane : (fleet lower).Sane world held) :
    (fleet lower).wp (refreshFleet markMissing) (Ends lower world fun _ _ _ => True) world held := by
  unfold refreshFleet
  refine asks_meets rfl sane fun now others sane config _ => ?_
  have grows := others.keeps
  split
  · exact ends_pure sane grows trivial
  refine asks_meets rfl sane fun now others sane names _ => ?_
  have grows := grows.trans others.keeps
  refine ends_bind grows (loadAll_meets names sane) fun docs now held' sane grows ends => ?_
  obtain ⟨same, -, known⟩ := ends
  rw [← same] at known
  refine asks_meets rfl sane fun now others sane answer _ => ?_
  have grows := grows.trans others.keeps
  split
  · exact ends_pure sane grows trivial
  refine reply_meets (fun _ _ => ends_error sane grows) fun registry _ => ?_
  refine ends_bind grows (refreshAll_meets docs sane (AllKnown.mono known (advances_merged others)))
    fun docs now held sane grows _ => ?_
  refine commit_meets sane fun now others _ sane grows' => ?_
  exact ends_from (grows.trans grows') (driveAll_meets docs sane)

/-! ## Regions -/

theorem validZone_none (lowers : lower "" = "") : validZone lower none = none := by
  have stripped : strip "" = "" := by decide
  have bare : stripOf (· == '.') "" = "" := by decide
  simp only [validZone, Option.getD_none, stripped, lowers, bare, if_true]

theorem syncRegion_meets (lowers : lower "" = "") (sane : (fleet lower).Sane world held) :
    (fleet lower).wp (syncRegion lower code) (Ends lower world fun _ _ _ => True) world held := by
  unfold syncRegion
  rw [wp_bind]
  refine sane.read fleet_steady fun now others sane => ?_
  rw [follows_ok, wp_bind]
  refine sane.lock fleet_steady fun now' others' sane => ?_
  have grows := others.keeps.trans others'.keeps
  rw [follows_ok]
  split
  · exact ends_raise sane grows
  next stamped =>
  have stamped := Classical.not_not.mp stamped
  have zone : (now.seen held (.region code)).proxyZone = (now'.seen held (.region code)).proxyZone := by
    obtain ⟨same, -⟩ | ⟨free, free'⟩ := others'.seen_or (.region code)
    · rw [same]
    · rw [free, free'] at stamped ⊢
      exact (others'.keeps.stamps code).2 stamped.symm
  rw [zone]
  have valid : ∀ name, zones (now'.merged (held.hold (.region code) (now'.seen held (.region code)))) code =
      some name ↔ (now'.seen held (.region code)).proxyZone = some name := by
    intro name
    rw [zones, World.rows_merged, World.seen_hold_self]
  have saved : validZone lower (now'.seen held (.region code)).proxyZone =
      (now'.seen held (.region code)).proxyZone := by
    cases found : (now'.seen held (.region code)).proxyZone with
    | none => exact validZone_none lowers
    | some name => exact sane.merged.regions code name ((valid name).mpr found)
  refine sane.write fleet_steady (fun later others'' sane => ?_) fun later others'' sane => ?_
  · refine hold_region sane ?_ (fun name found => ?_) fun name found => ?_
    · rw [stamp, World.rows_merged, World.seen_hold_self]
      exact Nat.lt_add_one _
    · rw [zones, World.rows_merged, World.seen_hold_self] at found
      dsimp only
      rw [saved, found]
    · rw [saved] at found
      refine sane.merged.regions code name ?_
      rw [zones, World.rows_merged, World.seen_hold_self, found]
  · exact ⟨sane, grows.trans others''.keeps, trivial⟩

theorem syncAll_meets (lowers : lower "" = "") (codes : List String) (sane : (fleet lower).Sane world held) :
    (fleet lower).wp (codes.forM (syncRegion lower)) (Ends lower world fun _ _ _ => True) world held := by
  induction codes generalizing world held with
  | nil => exact ends_pure sane (.refl _) trivial
  | cons code codes ih =>
    unfold List.forM
    exact ends_bind (.refl _) (syncRegion_meets lowers sane) fun _ now held' sane grows _ =>
      ends_from grows (ih sane)

theorem syncFleet_meets (lowers : lower "" = "") (sane : (fleet lower).Sane world held) :
    (fleet lower).wp (syncFleet lower) (Ends lower world fun _ _ _ => True) world held := by
  have regions : (fleet lower).wp (syncRegions lower) (Ends lower world fun _ _ _ => True) world held := by
    unfold syncRegions
    refine asks_meets rfl sane fun now others sane config _ => ?_
    split
    · exact ends_pure sane others.keeps trivial
    refine asks_meets rfl sane fun now others' sane answer _ => ?_
    have grows := others.keeps.trans others'.keeps
    exact reply_meets (fun _ _ => ends_error sane grows) fun codes _ =>
      ends_from grows (syncAll_meets lowers codes sane)
  refine ends_bind (.refl _) regions fun _ now held sane grows _ => ?_
  refine commit_meets sane fun now others _ sane grows' => ?_
  exact ends_from (grows.trans grows') (refreshFleet_meets sane)

/-! ## Actions -/

section

variable {Q : Except Raised β → World Row Call → Held Row → Prop}

theorem resetFailedInstall_meets {after : Doc → Job β} (sane : (fleet lower).Sane world held)
    (goesOn : ∀ now held' doc, (fleet lower).Sane now held' → (fleet lower).wp (after doc) Q now held') :
    (fleet lower).wp (resetFailedInstall doc >>= after) Q world held := by
  unfold resetFailedInstall
  split
  · exact dbSet_quiet (isQuiet_of_core fun _ => rfl) sane fun now held' _ sane =>
      goesOn now held' _ sane
  · exact goesOn world held doc sane

/-- A commit at the end. -/
theorem commits (sane : (fleet lower).Sane now held) :
    (fleet lower).wp (commit : Job Unit) (fun _ _ _ => True) now held :=
  sane.commit fleet_steady fun _ _ _ _ => trivial

end

theorem enqueues (sane : (fleet lower).Sane now held) :
    (fleet lower).wp (asks (.enqueueProvision name) >>= fun _ => (commit : Job Unit))
      (fun _ _ _ => True) now held :=
  asks_meets rfl sane fun _ _ sane _ _ => commits sane

theorem resume_meets (sane : (fleet lower).Sane world held) (known : Known (world.merged held) doc vm) :
    (fleet lower).wp (resume doc) (fun _ _ _ => True) world held := by
  unfold resume
  refine dbSet_meets sane (fun now vm' others sane here proper => ?_) fun now others sane =>
    resetFailedInstall_meets sane fun now held' doc sane => enqueues sane
  obtain ⟨after, known⟩ := known.mono (advances_merged others)
  obtain rfl := Option.some.inj (here.symm.trans known.here)
  refine ⟨⟨rfl, rfl, id, fun _ => rfl, id, id, fun _ => rfl⟩,
    ⟨proper.requestKey, proper.verified, proper.created, fun running => ?_, proper.ready⟩⟩
  dsimp only at running
  split at running
  · cases running
  · exact known.booted (.inr running)

theorem retry_meets (sane : (fleet lower).Sane world held) :
    (fleet lower).wp (retry name) (fun _ _ _ => True) world held := by
  unfold retry
  refine load_meets sane (fun _ _ _ => trivial) fun now vm others sane known => ?_
  split
  · next failed =>
    refine asks_meets rfl sane fun now others' sane answer _ => ?_
    obtain ⟨row, known⟩ := known.mono (advances_merged others')
    split
    · exact stop_meets sane fun _ _ _ sane => commits sane
    · trivial
    next action _ =>
    have named : isSet (if isSet action then action else vm.centralAction) = true := by
      split
      · next named => exact named
      · exact failed.1
    rw [wp_bind]
    refine dbSet_holds sane
      (fun later vm' others'' sane here proper => ?_) fun later held' others'' sane _ advances =>
      ?_
    · exact ⟨⟨rfl, rfl, fun _ => named, fun _ => rfl, id, id, fun unset => absurd named
        (Bool.eq_false_iff.mp unset)⟩,
        ⟨proper.requestKey, proper.verified, fun _ => named, proper.booted, proper.ready⟩⟩
    · obtain ⟨after, known⟩ := known.mono advances
      exact resume_meets sane ⟨known.here, known.region, fun _ => known.action failed.1, known.resource,
        known.booted⟩
  · exact resume_meets sane known

theorem verifyHostAgain_meets (sane : (fleet lower).Sane world held) :
    (fleet lower).wp (verifyHostAgain name) (fun _ _ _ => True) world held := by
  unfold verifyHostAgain
  refine load_meets sane (fun _ _ _ => trivial) fun now vm others sane known => ?_
  refine dbSet_meets sane (fun now' vm' others' sane here proper => ?_) fun now' others' sane => ?_
  · exact ⟨⟨rfl, rfl, id, fun _ => rfl, id, id, fun _ => rfl⟩,
      ⟨proper.requestKey, Bool.noConfusion, proper.created, proper.booted, proper.ready⟩⟩
  obtain ⟨row, known⟩ := known.mono (advances_merged others')
  have here : server (now'.merged held) name = some row := known.here
  rw [here] at sane ⊢
  have owned : Owned (held.hold (.server name) (some { row with hostVerified := false, error := none }))
      ⟨name, { vm with hostVerified := false, error := none }⟩
        { row with hostVerified := false, error := none } :=
    ⟨Function.update_self .., known.region, rfl⟩
  rw [wp_bind]
  refine wp_mono (fun outcome later held' ends => ?_) (verifyHost_meets sane owned)
  cases outcome with
  | ok done => exact commits ends.1
  | error error => trivial

theorem installSuiteApp_meets (sane : (fleet lower).Sane world held) :
    (fleet lower).wp (installSuiteApp name) (fun _ _ _ => True) world held := by
  unfold installSuiteApp
  refine load_meets sane (fun _ _ _ => trivial) fun now vm others sane known => ?_
  split
  · exact dbSet_quiet (error_isQuiet _) sane fun now held' others sane =>
      resetFailedInstall_meets sane fun now held' doc sane => enqueues sane
  · exact enqueues sane

theorem decommission_meets (sane : (fleet lower).Sane world held) :
    (fleet lower).wp (decommission name) (fun _ _ _ => True) world held := by
  unfold decommission
  exact load_meets sane (fun _ _ _ => trivial) fun now vm others sane known =>
    dbSet_quiet (isQuiet_of_core fun _ => rfl) sane fun _ _ _ sane => commits sane

theorem terminate_meets (sane : (fleet lower).Sane world held) :
    (fleet lower).wp (terminate name) (fun _ _ _ => True) world held := by
  unfold terminate
  refine load_meets sane (fun _ _ _ => trivial) fun now vm others sane known => ?_
  split
  · trivial
  · exact asks_meets rfl sane fun now others sane answer _ => reply_meets (fun _ _ => trivial) fun _ _ =>
      dbSet_quiet (isQuiet_of_core fun _ => rfl) sane fun _ _ _ sane => commits sane

theorem insert_meets {region : String} {ipv4 ipv6 : Bool} (sane : (fleet lower).Sane world held) :
    (fleet lower).wp (insert name region ipv4 ipv6) (fun _ _ _ => True) world held := by
  unfold insert
  refine asks_meets rfl sane fun now others sane answer _ => reply_meets
    (fun _ _ => trivial) fun resolved _ => ?_
  rw [wp_bind]
  refine sane.lock fleet_steady fun now' others' sane => ?_
  rw [follows_ok]
  cases found : now'.seen held (.server name) with
  | some vm => trivial
  | none =>
    rw [found] at sane
    rw [if_neg Bool.noConfusion, wp_bind]
    refine sane.write fleet_steady (fun later others'' sane => ?_) fun later others'' sane => ?_
    · have proper : Proper (zones (later.merged (held.hold (.server name) none))) name
          (.new name region ipv4 ipv6 resolved) :=
        ⟨rfl, Bool.noConfusion, Bool.noConfusion, ServerStatus.noConfusion, Bool.noConfusion⟩
      obtain ⟨kept, grows⟩ := sane.merged.insert (server_hold_self none) proper
      exact sane.set kept grows
    · exact enqueues sane

theorem ends_any {script : Job Unit}
    (ends : (fleet lower).wp script (Ends lower world fun _ _ _ => True) world held) :
    (fleet lower).wp script (fun _ _ _ => True) world held := wp_mono (fun _ _ _ _ => trivial) ends

theorem job_meets (lowers : lower "" = "") {job : Job Unit} (isJob : IsJob lower job)
    (kept : Kept lower world) :
    (fleet lower).wp job (fun _ _ _ => True) world fun _ => none := by
  have sane : (fleet lower).Sane world fun _ => none := .start kept
  cases isJob with
  | provision name => exact provision_meets sane
  | refreshFleet markMissing => exact ends_any (refreshFleet_meets sane)
  | syncFleet => exact ends_any (syncFleet_meets lowers sane)
  | retry name => exact retry_meets sane
  | verifyHost name => exact verifyHostAgain_meets sane
  | installSuiteApp name => exact installSuiteApp_meets sane
  | decommission name => exact decommission_meets sane
  | terminate name => exact terminate_meets sane
  | insert name region ipv4 ipv6 => exact insert_meets sane

end SuiteCloud.Hosting.Machines
