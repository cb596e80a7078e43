/-
**What every run of the fleet's jobs keeps.**

Provision jobs, refreshes, region syncs and operators' actions, of any number of servers, one beside the
other, each of which may die at any time. `fleet` is the contract that all of them meet.

* `Proper` — what a server's row says of itself; `Becomes` — what no change of it takes away.
* `Kept`, `Grows`, `fleet` — the contract; `fleet_steady` — it may be read off what a job has written.
-/

import SuiteCloud.Hosting.Machines.Model

namespace SuiteCloud.Hosting.Machines

open SuiteCloud.Library Script

/-- The request key of a server. -/
def keyOf (name : String) : String := s!"suite-cloud-{name}"

theorem keyOf_injective {name other : String} (same : keyOf name = keyOf other) : name = other := by
  have chars := congrArg String.toList same
  simp only [keyOf, String.toList_append] at chars
  exact String.toList_inj.mp (List.append_cancel_left chars)

/-! ## Rows -/

/-- **What no change takes from a server.** -/
structure Becomes (before after : VirtualMachine) : Prop where
  region : after.region = before.region
  requestKey : after.requestKey = before.requestKey
  action : isSet before.centralAction → isSet after.centralAction
  resource : isSet before.centralResourceId → after.centralResourceId = before.centralResourceId
  booted : before.bootedAt.isSome → after.bootedAt.isSome
  ready : before.readySince.isSome → after.readySince.isSome
  arguments : isSet after.centralAction = false → serverArguments after = serverArguments before

theorem Becomes.refl (vm : VirtualMachine) : Becomes vm vm :=
    ⟨rfl, rfl, id, fun _ => rfl, id, id, fun _ => rfl⟩

theorem Becomes.trans {first second third : VirtualMachine} (one : Becomes first second)
    (two : Becomes second third) : Becomes first third where
  region := two.region.trans one.region
  requestKey := two.requestKey.trans one.requestKey
  action := two.action ∘ one.action
  resource known := by
    have same := one.resource known
    exact (two.resource (by rw [same]; exact known)).trans same
  booted := two.booted ∘ one.booted
  ready := two.ready ∘ one.ready
  arguments unset := by
    have before : isSet second.centralAction = false :=
      Bool.eq_false_iff.mpr fun created => Bool.eq_false_iff.mp unset (two.action created)
    exact (two.arguments unset).trans (one.arguments before)

/-- **What a server's row says of itself**, where the regions have these zones. -/
structure Proper (zones : String → Option String) (name : String) (vm : VirtualMachine) : Prop where
  requestKey : vm.requestKey = keyOf name
  verified : vm.hostVerified → ∃ zone, vm.wildcardZone = some zone ∧
    (vm.region ++ ".").toList <+: zone.toList ∧ zones vm.region = some zone
  created : isSet vm.centralResourceId → isSet vm.centralAction
  booted : vm.status = .running → vm.bootedAt.isSome
  ready : vm.readySince.isSome →
    isSet vm.centralResourceId ∧ vm.bootedAt.isSome ∧ (zones vm.region).isSome

theorem Proper.mono {zones later : String → Option String} {name : String} {vm : VirtualMachine}
    (proper : Proper zones name vm) (kept : ∀ code zone, zones code = some zone → later code = some zone) :
    Proper later name vm where
  requestKey := proper.requestKey
  verified verified := by
    obtain ⟨zone, own, starts, served⟩ := proper.verified verified
    exact ⟨zone, own, starts, kept _ _ served⟩
  created := proper.created
  booted := proper.booted
  ready isReady := by
    obtain ⟨created, booted, served⟩ := proper.ready isReady
    obtain ⟨zone, served⟩ := Option.isSome_iff_exists.mp served
    exact ⟨created, booted, Option.isSome_of_eq_some (kept _ _ served)⟩

/-! ## Worlds -/

def server (world : World Row Call) (name : String) : Option VirtualMachine := world.rows (.server name)

def zones (world : World Row Call) (code : String) : Option String := (world.rows (.region code)).proxyZone

def stamp (world : World Row Call) (code : String) : ℕ := (world.rows (.region code)).modified

def Call.isCreationOf (name : String) : Call → Bool
  | .createServer arguments => arguments.requestKey = keyOf name
  | _ => false

def Call.creates : Call → Bool
  | .createServer _ => true
  | _ => false

/-- The creations of a server that Central was asked for. -/
def creations (name : String) (calls : List Call) : List Call := calls.filter (Call.isCreationOf name)

/-- **What every world meets.** -/
structure Kept (lower : String → String) (world : World Row Call) : Prop where
  servers : ∀ name vm, server world name = some vm → Proper (zones world) name vm
  regions : ∀ code zone, zones world code = some zone → validZone lower (some zone) = some zone
  sent : ∀ name vm arguments, server world name = some vm → isSet vm.centralAction = false →
    .createServer arguments ∈ world.calls → arguments.requestKey = keyOf name → arguments = serverArguments vm
  same : ∀ one other, .createServer one ∈ world.calls → .createServer other ∈ world.calls →
    one.requestKey = other.requestKey → one = other
  known : ∀ arguments, .createServer arguments ∈ world.calls →
    ∃ name vm, server world name = some vm ∧ arguments.requestKey = keyOf name

/-- **What every change of a world keeps.** -/
structure Grows (before now : World Row Call) : Prop where
  servers : ∀ name vm, server before name = some vm → ∃ after, server now name = some after ∧ Becomes vm after
  regions : ∀ code zone, zones before code = some zone → zones now code = some zone
  stamps : ∀ code, stamp before code ≤ stamp now code ∧
    (stamp before code = stamp now code → zones before code = zones now code)
  creations : ∀ name vm, server before name = some vm → isSet vm.centralAction →
    creations name now.calls = creations name before.calls

theorem Grows.refl (world : World Row Call) : Grows world world :=
  ⟨fun _ vm here => ⟨vm, here, .refl vm⟩, fun _ _ => id, fun _ => ⟨Nat.le_refl _, fun _ => rfl⟩,
    fun _ _ _ _ => rfl⟩

theorem Grows.trans {first second third : World Row Call} (one : Grows first second)
    (two : Grows second third) :
    Grows first third where
  servers name vm here := by
    obtain ⟨next, there, becomes⟩ := one.servers name vm here
    obtain ⟨last, found, becomes'⟩ := two.servers name next there
    exact ⟨last, found, becomes.trans becomes'⟩
  regions code zone here := two.regions code zone (one.regions code zone here)
  stamps code := by
    obtain ⟨le, same⟩ := one.stamps code
    obtain ⟨le', same'⟩ := two.stamps code
    refine ⟨Nat.le_trans le le', fun equal => ?_⟩
    exact (same (by omega)).trans (same' (by omega))
  creations name vm here created := by
    obtain ⟨next, there, becomes⟩ := one.servers name vm here
    exact (two.creations name next there (becomes.action created)).trans (one.creations name vm here created)

/-- What is promised: Central's actions have names, and the zone that Pilot registers sites under is written
as `Region.validate` writes one. -/
def Promised (lower : String → String) : ∀ call, Answer call → Prop
  | .createServer _, .ok action => action ≠ ""
  | .wildcardDomains _, .ok domains =>
      ∀ zone, (zoneOf domains).filter (· ≠ "") = some zone → validZone lower (some zone) = some zone
  | _, _ => True

/-- **The contract of the fleet.** -/
def fleet (lower : String → String) : Contract Row Answer where
  Holds := Kept lower
  Keeps := Grows
  Promised := Promised lower
  refl := Grows.refl
  trans := Grows.trans

variable {lower : String → String} {world now before : World Row Call} {held : Held Row} {name code : String}

/-! ### A row changes -/

theorem server_set_self (row : Option VirtualMachine) : server (world.set (.server name) row) name = row :=
  World.rows_set_self ..

theorem server_set_other {other : String} (foreign : other ≠ name) (row : Option VirtualMachine) :
    server (world.set (.server name) row) other = server world other :=
  World.rows_set_other world (fun same => foreign (Key.server.inj same)) row

theorem region_set_server (row : Option VirtualMachine) :
    (world.set (.server name) row).rows (.region code) = world.rows (.region code) :=
  World.rows_set_other world (show Key.region code ≠ .server name from Key.noConfusion) row

theorem zones_set_server (row : Option VirtualMachine) : zones (world.set (.server name) row) = zones world :=
  funext fun _ => congrArg Region.proxyZone (region_set_server row)

theorem stamp_set_server (row : Option VirtualMachine) : stamp (world.set (.server name) row) = stamp world :=
  funext fun _ => congrArg Region.modified (region_set_server row)

/-- **A change of a server's row** that takes nothing from it. -/
theorem Kept.change (kept : Kept lower world) {change : VirtualMachine → VirtualMachine}
    (proper : ∀ vm, server world name = some vm → Proper (zones world) name vm →
      Becomes vm (change vm) ∧ Proper (zones world) name (change vm)) :
    Kept lower (world.set (.server name) ((server world name).map change)) ∧
      Grows world (world.set (.server name) ((server world name).map change)) := by
  have changes : ∀ other vm, server world other = some vm → ∃ after,
      server (world.set (.server name) ((server world name).map change)) other = some after ∧
        Becomes vm after := by
    intro other vm here
    by_cases same : other = name
    · subst same
      refine ⟨change vm, ?_, (proper vm here (kept.servers other vm here)).1⟩
      rw [server_set_self, here]
      rfl
    · exact ⟨vm, (server_set_other same _).trans here, .refl vm⟩
  have origin : ∀ other after,
      server (world.set (.server name) ((server world name).map change)) other = some after →
      ∃ vm, server world other = some vm ∧ Becomes vm after ∧ Proper (zones world) other after := by
    intro other after found
    by_cases same : other = name
    · subst same
      rw [server_set_self, Option.map_eq_some_iff] at found
      obtain ⟨vm, here, rfl⟩ := found
      exact ⟨vm, here, proper vm here (kept.servers other vm here)⟩
    · rw [server_set_other same] at found
      exact ⟨after, found, .refl after, kept.servers other after found⟩
  refine ⟨⟨fun other after found => ?_, fun code zone => ?_,
    fun other after arguments found unset asked same => ?_,
    kept.same, fun arguments asked => ?_⟩,
      ⟨changes, fun code zone here => ?_, fun code => ?_, fun _ _ _ _ => rfl⟩⟩
  · rw [zones_set_server]
    exact (origin other after found).choose_spec.2.2
  · rw [zones_set_server]
    exact kept.regions code zone
  · obtain ⟨vm, here, becomes, -⟩ := origin other after found
    have unset' : isSet vm.centralAction = false :=
      Bool.eq_false_iff.mpr fun created => Bool.eq_false_iff.mp unset (becomes.action created)
    exact (kept.sent other vm arguments here unset' asked same).trans (becomes.arguments unset).symm
  · obtain ⟨other, vm, here, same⟩ := kept.known arguments asked
    obtain ⟨after, found, -⟩ := changes other vm here
    exact ⟨other, after, found, same⟩
  · rw [zones_set_server]
    exact here
  · rw [stamp_set_server, zones_set_server]
    exact ⟨Nat.le_refl _, fun _ => rfl⟩

/-- **A new server.** -/
theorem Kept.insert (kept : Kept lower world) (free : server world name = none) {vm : VirtualMachine}
    (proper : Proper (zones world) name vm) :
    Kept lower (world.set (.server name) (some vm)) ∧ Grows world (world.set (.server name) (some vm)) := by
  have changes : ∀ other old, server world other = some old →
      server (world.set (.server name) (some vm)) other = some old := by
    intro other old here
    have foreign : other ≠ name := by
      rintro rfl
      rw [free] at here
      cases here
    exact (server_set_other foreign _).trans here
  refine ⟨⟨fun other after found => ?_, fun code zone => ?_,
    fun other after arguments found unset asked same => ?_,
    kept.same, fun arguments asked => ?_⟩, ⟨fun other old here => ⟨old, changes other old here, .refl old⟩,
      fun code zone here => ?_, fun code => ?_, fun _ _ _ _ => rfl⟩⟩
  · rw [zones_set_server]
    by_cases here : other = name
    · subst here
      rw [server_set_self] at found
      cases found
      exact proper
    · rw [server_set_other here] at found
      exact kept.servers other after found
  · rw [zones_set_server]
    exact kept.regions code zone
  · by_cases here : other = name
    · subst here
      obtain ⟨owner, old, there, key⟩ := kept.known arguments asked
      obtain rfl := keyOf_injective (same.symm.trans key)
      rw [free] at there
      cases there
    · rw [server_set_other here] at found
      exact kept.sent other after arguments found unset asked same
  · obtain ⟨other, old, here, same⟩ := kept.known arguments asked
    exact ⟨other, old, changes other old here, same⟩
  · rw [zones_set_server]
    exact here
  · rw [stamp_set_server, zones_set_server]
    exact ⟨Nat.le_refl _, fun _ => rfl⟩

theorem region_set_self (row : Region) : (world.set (.region code) row).rows (.region code) = row :=
  World.rows_set_self ..

theorem region_set_other {other : String} (foreign : other ≠ code) (row : Region) :
    (world.set (.region code) row).rows (.region other) = world.rows (.region other) :=
  World.rows_set_other world (fun same => foreign (Key.region.inj same)) row

theorem server_set_region (row : Region) (name : String) :
    server (world.set (.region code) row) name = server world name :=
  World.rows_set_other world (show Key.server name ≠ .region code from Key.noConfusion) row

/-- **A change of a region** that keeps the zone it has, and leaves another stamp. -/
theorem Kept.region (kept : Kept lower world) {row : Region} (stamped : stamp world code < row.modified)
    (same : ∀ zone, zones world code = some zone → row.proxyZone = some zone)
    (valid : ∀ zone, row.proxyZone = some zone → validZone lower (some zone) = some zone) :
    Kept lower (world.set (.region code) row) ∧ Grows world (world.set (.region code) row) := by
  have zone_self : zones (world.set (.region code) row) code = row.proxyZone :=
    congrArg Region.proxyZone (region_set_self row)
  have zone_other : ∀ other, other ≠ code → zones (world.set (.region code) row) other = zones world other :=
    fun other foreign => congrArg Region.proxyZone (region_set_other foreign row)
  have keeps : ∀ other zone, zones world other = some zone →
      zones (world.set (.region code) row) other = some zone := by
    intro other zone here
    by_cases there : other = code
    · subst there
      exact zone_self.trans (same zone here)
    · exact (zone_other other there).trans here
  refine ⟨⟨fun other vm found => ?_, fun other zone here => ?_, fun other vm arguments found => ?_, kept.same,
    fun arguments asked => ?_⟩, ⟨fun other vm here => ⟨vm, ?_, .refl vm⟩, keeps, fun other => ?_,
      fun _ _ _ _ => rfl⟩⟩
  · rw [server_set_region] at found
    exact (kept.servers other vm found).mono keeps
  · by_cases there : other = code
    · subst there
      rw [zone_self] at here
      exact valid zone here
    · rw [zone_other other there] at here
      exact kept.regions other zone here
  · rw [server_set_region] at found
    exact kept.sent other vm arguments found
  · obtain ⟨other, vm, here, key⟩ := kept.known arguments asked
    exact ⟨other, vm, (server_set_region row other).trans here, key⟩
  · exact (server_set_region row other).trans here
  · by_cases there : other = code
    · subst there
      rw [stamp, stamp, region_set_self]
      exact ⟨Nat.le_of_lt stamped, fun equal => absurd equal (Nat.ne_of_lt stamped)⟩
    · rw [stamp, stamp, region_set_other there, zone_other other there]
      exact ⟨Nat.le_refl _, fun _ => rfl⟩

/-! ### Calls -/

theorem creations_append {calls : List Call} {call : Call} :
    creations name (calls ++ [call]) =
      creations name calls ++ if call.isCreationOf name then [call] else [] := by
  rw [creations, List.filter_append, List.filter_singleton, Bool.cond_eq_ite]
  rfl

theorem fleet_silent {call : Call} (creates : call.creates = false) : (fleet lower).IsSilent call := by
  have silent : ∀ arguments, call ≠ .createServer arguments := by
    rintro arguments rfl
    cases creates
  have same : ∀ calls name, creations name (calls ++ [call]) = creations name calls := by
    intro calls name
    have other : call.isCreationOf name = false := by
      cases call with
      | createServer arguments => exact absurd rfl (silent arguments)
      | _ => rfl
    rw [creations_append, other]
    exact List.append_nil _
  have old : ∀ {calls : List Call} {arguments}, Call.createServer arguments ∈ calls ++ [call] →
      .createServer arguments ∈ calls := by
    intro calls arguments asked
    obtain asked | asked := List.mem_append.mp asked
    · exact asked
    · exact absurd (List.mem_singleton.mp asked).symm (silent arguments)
  intro world kept
  refine ⟨⟨kept.servers, kept.regions, fun name vm arguments here unset asked => ?_,
    fun one other here there => ?_,
    fun arguments asked => ?_⟩, ⟨fun _ vm here => ⟨vm, here, .refl vm⟩, fun _ _ => id,
      fun _ => ⟨Nat.le_refl _, fun _ => rfl⟩, fun _ _ _ _ => same _ _⟩, fun held grows => ?_⟩
  · exact kept.sent name vm arguments here unset (old asked)
  · exact kept.same one other (old here) (old there)
  · exact kept.known arguments (old asked)
  · exact ⟨grows.servers, grows.regions, grows.stamps, fun _ _ _ _ => rfl⟩

/-! ### What is held -/

/-- **What a job has written may be committed at any time.** -/
theorem fleet_steady : (fleet lower).IsSteady := by
  intro held before now others sane
  have zone : ∀ code zone, zones now code = some zone → zones (now.merged held) code = some zone := by
    intro code zone here
    obtain ⟨same, locked⟩ | ⟨free, -⟩ := others.seen_or (.region code)
    · rw [zones, locked] at here
      rw [zones, World.rows_merged, same]
      exact sane.keeps.regions code zone here
    · rw [zones, World.rows_merged, free]
      exact here
  have zone' : ∀ code zone, zones (before.merged held) code = some zone →
      zones (now.merged held) code = some zone := by
    intro code zone here
    obtain ⟨same, -⟩ | ⟨free, free'⟩ := others.seen_or (.region code)
    · rw [zones, World.rows_merged, same]
      exact here
    · rw [zones, World.rows_merged, free'] at here
      rw [zones, World.rows_merged, free]
      exact others.keeps.regions code zone here
  have serverOf : ∀ name,
      server (now.merged held) name = server (before.merged held) name ∧ server now name =
        server before name ∨
        server (now.merged held) name = server now name := by
    intro name
    obtain ⟨same, locked⟩ | ⟨free, -⟩ := others.seen_or (.server name)
    · exact .inl ⟨same, locked⟩
    · exact .inr free
  have grows : ∀ name vm, server now name = some vm →
      ∃ after, server (now.merged held) name = some after ∧ Becomes vm after := by
    intro name vm here
    obtain ⟨same, locked⟩ | free := serverOf name
    · rw [locked] at here
      rw [same]
      exact sane.keeps.servers name vm here
    · exact ⟨vm, free.trans here, .refl vm⟩
  refine ⟨others.holds, ⟨fun name vm found => ?_, fun code zone here => ?_,
    fun name vm arguments found unset asked key => ?_, others.holds.same, fun arguments asked => ?_⟩,
    ⟨grows, zone, fun code => ?_, fun _ _ _ _ => rfl⟩⟩
  · obtain ⟨same, -⟩ | free := serverOf name
    · rw [same] at found
      exact (sane.merged.servers name vm found).mono zone'
    · rw [free] at found
      exact (others.holds.servers name vm found).mono zone
  · obtain ⟨same, -⟩ | ⟨free, -⟩ := others.seen_or (.region code)
    · rw [zones, World.rows_merged, same] at here
      exact sane.merged.regions code zone here
    · rw [zones, World.rows_merged, free] at here
      exact others.holds.regions code zone here
  · obtain ⟨other, old, there, key'⟩ := others.holds.known arguments asked
    obtain rfl := keyOf_injective (key.symm.trans key')
    obtain ⟨after, found', becomes⟩ := grows name old there
    obtain rfl := Option.some.inj (found.symm.trans found')
    have unset' : isSet old.centralAction = false :=
      Bool.eq_false_iff.mpr fun created => Bool.eq_false_iff.mp unset (becomes.action created)
    exact (others.holds.sent name old arguments there unset' asked key).trans (becomes.arguments unset).symm
  · obtain ⟨name, vm, there, key⟩ := others.holds.known arguments asked
    obtain ⟨after, found, -⟩ := grows name vm there
    exact ⟨name, after, found, key⟩
  · obtain ⟨same, locked⟩ | ⟨free, -⟩ := others.seen_or (.region code)
    · rw [stamp, stamp, zones, zones, World.rows_merged, same, locked]
      exact sane.keeps.stamps code
    · rw [stamp, stamp, zones, zones, World.rows_merged, free]
      exact ⟨Nat.le_refl _, fun _ => rfl⟩

end SuiteCloud.Hosting.Machines
