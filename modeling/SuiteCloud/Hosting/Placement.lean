/-
**Placing sites on servers.**

`pick_virtual_machine` and `fill_pool` of `suite_cloud/hosting/capacity.py`, `place` and `create` of
`suite_cloud/hosting/sites.py` and the capacity of a Virtual Machine, for the servers of one region. A
placement is a transaction at REPEATABLE READ: it has read before it locks the candidates, which are read
as they are committed, while the servers' documents and the sites on them are those of its view.

* `pickVirtualMachine` — **the server with most free slots**; `pickVirtualMachine_eq_some` — it has one.
* `Placed` — what a placement has placed fits on its servers, which only it has locked.
* `sites_within_capacity` — **a server never gets more sites than it holds** in a run in which no
  placement picks a server whose free slots are gone by then.
* `last_slot_placed_twice` — two placements that both read before the first one commits.
-/

import Mathlib.Algebra.Order.Group.Int
import Mathlib.Logic.Function.Basic
import SuiteCloud.Library.Maps
import SuiteCloud.Library.ReadView
import SuiteCloud.Library.Transition

set_option linter.unusedSectionVars false

namespace SuiteCloud.Hosting.Placement

open SuiteCloud.Library

/-! ## Servers -/

namespace VirtualMachine

inductive Status
  | pending
  | provisioning
  | deploying
  | running
  | paused
  | stopped
  | failed
  | terminated
  deriving DecidableEq

inductive AppStatus
  | pending
  | installing
  | installed
  | failed
  deriving DecidableEq

end VirtualMachine

/-- A Virtual Machine: what the capacity and the set-up of it are read from. -/
structure VirtualMachine where
  enabled : Bool
  status : VirtualMachine.Status
  hostVerified : Bool
  suiteAppStatus : VirtualMachine.AppStatus
  error : Option String
  maxSites : ℤ
  foreignSiteCount : ℤ
  deriving DecidableEq

namespace VirtualMachine

/-- `free_slots`, with the site count it reads. -/
def freeSlots (vm : VirtualMachine) (siteCount : ℕ) : ℤ := vm.maxSites - siteCount - vm.foreignSiteCount

/-- `is_ready`. -/
def isReady (vm : VirtualMachine) : Bool :=
  decide (vm.status = .running) && vm.hostVerified && decide (vm.suiteAppStatus = .installed) &&
    decide ((vm.error.filter (· ≠ "")).isNone)

/-- `has_free_slot`. -/
def hasFreeSlot (vm : VirtualMachine) (siteCount : ℕ) : Bool :=
  vm.enabled && vm.isReady && decide (0 < vm.freeSlots siteCount)

/-- The filter of `pick_virtual_machine`. -/
def isCandidate (vm : VirtualMachine) : Bool := vm.enabled && decide (vm.status = .running)

end VirtualMachine

variable {V : Type}

/-- The better of the best server so far, with its slots, and the next one. -/
def keepBetter (documents : V → VirtualMachine) (siteCount : V → ℕ) (best : Option V × ℤ) (name : V) :
    Option V × ℤ :=
  let vm := documents name
  if vm.hasFreeSlot (siteCount name) && decide (best.2 < vm.freeSlots (siteCount name)) then
    (some name, vm.freeSlots (siteCount name))
  else best

/-- **The server with most free slots**, of the candidates in the order of their names: the documents
and the site counts are those the caller reads. -/
def pickVirtualMachine (candidates : List V) (documents : V → VirtualMachine) (siteCount : V → ℕ) :
    Option V :=
  (candidates.foldl (keepBetter documents siteCount) (none, 0)).1

theorem pickVirtualMachine_eq_some {candidates : List V} {documents : V → VirtualMachine}
    {siteCount : V → ℕ} {name : V} (picked : pickVirtualMachine candidates documents siteCount = some name) :
    name ∈ candidates ∧ 0 < (documents name).freeSlots (siteCount name) := by
  -- The best so far is one of the candidates, with a free slot.
  have kept : ∀ vm ∈ (candidates.foldl (keepBetter documents siteCount) (none, 0)).1,
      vm ∈ candidates ∧ 0 < (documents vm).freeSlots (siteCount vm) := by
    refine List.foldlRecOn (motive := fun best : Option V × ℤ => ∀ vm ∈ best.1,
      vm ∈ candidates ∧ 0 < (documents vm).freeSlots (siteCount vm)) candidates _ nofun ?_
    intro best holds next member vm there
    simp only [keepBetter] at there
    split at there
    · next better =>
      obtain rfl : next = vm := Option.some.inj there
      rw [VirtualMachine.hasFreeSlot, Bool.and_eq_true, Bool.and_eq_true, decide_eq_true_iff] at better
      exact ⟨member, better.1.2⟩
    · exact holds vm there
  exact kept name picked

/-! ## Placements -/

/-- The committed servers, and the sites on each that are not Dropped. -/
structure Data (V : Type) where
  vms : V → VirtualMachine
  sites : V → ℕ

/-- A placement's transaction: the servers it may still pick (one for the site of `create`, the missing
ones for `fill_pool`), its view, and the servers of the sites it has placed. -/
inductive Phase (V : Type)
  | running (slots : ℕ) (view : ReadView (Data V)) (placed : List V)
  | closed

/-- What is committed, who has locked each server, and the placements. -/
structure State (V T : Type) where
  data : Data V
  locks : V → Option T
  placements : T → Option (Phase V)

variable {T : Type}

def State.initial (data : Data V) : State V T := ⟨data, fun _ => none, fun _ => none⟩

inductive Action (V T : Type)
  | start (placement : T) (slots : ℕ)
  /-- A plain read. -/
  | read (placement : T)
  /-- `pick_virtual_machine`, and the site that is placed on what it picks. -/
  | pick (placement : T)
  | commit (placement : T)
  /-- The placement fails and its transaction is rolled back. -/
  | fail (placement : T)
  /-- A site is dropped. -/
  | drop (vm : V)
  /-- A server is saved by another job. -/
  | saveServer (vm : V) (document : VirtualMachine)

variable [DecidableEq V] [DecidableEq T]

/-- Moves a placement on. -/
def State.setPhase (s : State V T) (id : T) (phase : Phase V) : State V T :=
  { s with placements := Function.update s.placements id (some phase) }

/-- The end of a transaction: its row locks go. -/
def State.release (s : State V T) (id : T) : State V T :=
  { s with locks := fun vm => if s.locks vm = some id then none else s.locks vm }

/-- The sites of a server a transaction counts: those of its view and its own. -/
def countSites (view : Data V) (placed : List V) (vm : V) : ℕ := view.sites vm + placed.count vm

/-- The candidates, as they are committed. -/
def State.candidates (s : State V T) (names : List V) : List V :=
  names.filter fun vm => (s.data.vms vm).isCandidate

/-- **One step of the system**, over the servers of the region by name. -/
def step (names : List V) (s : State V T) : Action V T → Option (State V T)
  | .start id slots =>
      match s.placements id with
      | some _ => none
      | none => some (s.setPhase id (.running slots .unopened []))
  | .read id =>
      match s.placements id with
      | some (.running slots view placed) =>
          some (s.setPhase id (.running slots (view.read s.data) placed))
      | _ => none
  | .pick id =>
      match s.placements id with
      | some (.running (slots + 1) (.opened view) placed) =>
          -- The locking read waits until no other transaction has one of the candidates.
          if ∀ vm ∈ s.candidates names, s.locks vm = none ∨ s.locks vm = some id then
            let locked := { s with
              locks := fun vm => if vm ∈ s.candidates names then some id else s.locks vm }
            match pickVirtualMachine (s.candidates names) view.vms (countSites view placed) with
            | none => some (locked.setPhase id (.running 0 (.opened view) placed))
            | some vm => some (locked.setPhase id (.running slots (.opened view) (vm :: placed)))
          else none
      | _ => none
  | .commit id =>
      match s.placements id with
      | some (.running _ _ placed) =>
          some { (s.setPhase id .closed).release id with
            data := { s.data with sites := countSites s.data placed } }
      | _ => none
  | .fail id =>
      match s.placements id with
      | some (.running _ _ _) => some ((s.setPhase id .closed).release id)
      | _ => none
  | .drop vm =>
      some { s with data := { s.data with
        sites := Function.update s.data.sites vm (s.data.sites vm - 1) } }
  | .saveServer vm document =>
      if s.locks vm = none ∧ document.maxSites = (s.data.vms vm).maxSites ∧
          document.foreignSiteCount = (s.data.vms vm).foreignSiteCount then
        some { s with data := { s.data with vms := Function.update s.data.vms vm document } }
      else none

/-! ## What a step does -/

/-- **The steps**, each with what it needs and what it leaves. -/
inductive Steps (names : List V) (s : State V T) : Action V T → State V T → Prop
  | start (id : T) (slots : ℕ) : s.placements id = none →
      Steps names s (.start id slots) (s.setPhase id (.running slots .unopened []))
  | read (id : T) (slots : ℕ) (view : ReadView (Data V)) (placed : List V) :
      s.placements id = some (.running slots view placed) →
      Steps names s (.read id) (s.setPhase id (.running slots (view.read s.data) placed))
  | full (id : T) (slots : ℕ) (view : Data V) (placed : List V) :
      s.placements id = some (.running slots (.opened view) placed) →
      (∀ vm ∈ s.candidates names, s.locks vm = none ∨ s.locks vm = some id) →
      Steps names s (.pick id) (State.setPhase
        { s with locks := fun vm => if vm ∈ s.candidates names then some id else s.locks vm }
        id (.running 0 (.opened view) placed))
  | place (id : T) (slots : ℕ) (view : Data V) (placed : List V) (picked : V) :
      s.placements id = some (.running (slots + 1) (.opened view) placed) →
      (∀ vm ∈ s.candidates names, s.locks vm = none ∨ s.locks vm = some id) →
      picked ∈ s.candidates names →
      0 < (view.vms picked).freeSlots (countSites view placed picked) →
      Steps names s (.pick id) (State.setPhase
        { s with locks := fun vm => if vm ∈ s.candidates names then some id else s.locks vm }
        id (.running slots (.opened view) (picked :: placed)))
  | commit (id : T) (slots : ℕ) (view : ReadView (Data V)) (placed : List V) :
      s.placements id = some (.running slots view placed) →
      Steps names s (.commit id) { (s.setPhase id .closed).release id with
        data := { s.data with sites := countSites s.data placed } }
  | fail (id : T) (slots : ℕ) (view : ReadView (Data V)) (placed : List V) :
      s.placements id = some (.running slots view placed) →
      Steps names s (.fail id) ((s.setPhase id .closed).release id)
  | drop (vm : V) : Steps names s (.drop vm) { s with data := { s.data with
      sites := Function.update s.data.sites vm (s.data.sites vm - 1) } }
  | saveServer (vm : V) (document : VirtualMachine) :
      document.maxSites = (s.data.vms vm).maxSites →
      document.foreignSiteCount = (s.data.vms vm).foreignSiteCount →
      Steps names s (.saveServer vm document)
        { s with data := { s.data with vms := Function.update s.data.vms vm document } }

theorem steps_of_step {names : List V} {s s' : State V T} {action : Action V T}
    (taken : step names s action = some s') : Steps names s action s' := by
  cases action with
  | start id slots =>
    simp only [step] at taken
    split at taken
    case h_1 => cases taken
    case h_2 fresh =>
      obtain rfl := Option.some.inj taken
      exact .start id slots fresh
  | read id =>
    simp only [step] at taken
    split at taken
    case h_1 slots view placed here =>
      obtain rfl := Option.some.inj taken
      exact .read id slots view placed here
    case h_2 => cases taken
  | pick id =>
    simp only [step] at taken
    split at taken
    case h_1 slots view placed here =>
      split at taken
      case isTrue free =>
        split at taken
        case h_1 =>
          obtain rfl := Option.some.inj taken
          exact .full id _ view placed here free
        case h_2 picked found =>
          obtain rfl := Option.some.inj taken
          obtain ⟨candidate, slot⟩ := pickVirtualMachine_eq_some found
          exact .place id slots view placed picked here free candidate slot
      case isFalse => cases taken
    case h_2 => cases taken
  | commit id =>
    simp only [step] at taken
    split at taken
    case h_1 slots view placed here =>
      obtain rfl := Option.some.inj taken
      exact .commit id slots view placed here
    case h_2 => cases taken
  | fail id =>
    simp only [step] at taken
    split at taken
    case h_1 slots view placed here =>
      obtain rfl := Option.some.inj taken
      exact .fail id slots view placed here
    case h_2 => cases taken
  | drop vm =>
    obtain rfl := Option.some.inj taken
    exact .drop vm
  | saveServer vm document =>
    simp only [step] at taken
    split at taken
    case isTrue same =>
      obtain rfl := Option.some.inj taken
      exact .saveServer vm document same.2.1 same.2.2
    case isFalse => cases taken

/-! ## The invariant -/

/-- The view of a placement, and what it has placed. -/
def Phase.seen : Phase V → Option (Data V × List V)
  | .running _ (.opened view) placed => some (view, placed)
  | _ => none

/-- **The condition**: whenever a placement picks, a server with a free slot in its view has one among
the committed sites too. -/
def seesFreeSlots (names : List V) (s : State V T) : Action V T → Prop
  | .pick id => ∀ entry ∈ (s.placements id).bind Phase.seen, ∀ vm ∈ names,
      0 < (entry.1.vms vm).freeSlots (countSites entry.1 entry.2 vm) →
        0 < (s.data.vms vm).freeSlots (countSites s.data entry.2 vm)
  | _ => True

instance (names : List V) (s : State V T) (action : Action V T) :
    Decidable (seesFreeSlots names s action) :=
  match action with
  | .pick id => inferInstanceAs (Decidable (∀ entry ∈ (s.placements id).bind Phase.seen,
      ∀ vm ∈ names, 0 < (entry.1.vms vm).freeSlots (countSites entry.1 entry.2 vm) →
        0 < (s.data.vms vm).freeSlots (countSites s.data entry.2 vm)))
  | .start _ _ | .read _ | .commit _ | .fail _ | .drop _ | .saveServer _ _ =>
      inferInstanceAs (Decidable True)

/-- The sites of a server, with those a placement has put there, fit. -/
def Fits (s : State V T) (vm : V) (placed : List V) : Prop :=
  (countSites s.data placed vm : ℤ) + (s.data.vms vm).foreignSiteCount ≤ (s.data.vms vm).maxSites

/-- **What is placed on a server fits**, and whoever placed it has the server's row. -/
structure Placed (vm : V) (s : State V T) : Prop where
  locked : ∀ {id slots view placed}, s.placements id = some (.running slots view placed) →
    vm ∈ placed → s.locks vm = some id
  fits : ∀ {id slots view placed}, s.placements id = some (.running slots view placed) →
    vm ∈ placed → Fits s vm placed
  within : Fits s vm []

variable {names : List V} {s s' : State V T} {vm : V}

theorem fits_of_freeSlots {placed : List V}
    (slot : 0 < (s.data.vms vm).freeSlots (countSites s.data placed vm)) : Fits s vm (vm :: placed) := by
  simp only [VirtualMachine.freeSlots, countSites] at slot
  simp only [Fits, countSites, List.count_cons_self]
  omega

theorem fits_cons_of_ne {picked : V} {placed : List V} (other : picked ≠ vm) :
    Fits s vm (picked :: placed) ↔ Fits s vm placed := by
  simp only [Fits, countSites, List.count_cons_of_ne other]

/-- A placement that starts, reads or ends without a commit, and the locks that stay. -/
theorem Placed.moved (here : Placed vm s) (id : T) (phase : Phase V)
    (kept : ∀ {slots view placed}, phase = .running slots view placed → vm ∈ placed →
      s.locks vm = some id ∧ Fits s vm placed) : Placed vm (s.setPhase id phase) := by
  refine ⟨?_, ?_, here.within⟩
  · intro other slots view placed there mine
    rcases update_eq_some there with ⟨rfl, same⟩ | ⟨-, there⟩
    · exact (kept same.symm mine).1
    · exact here.locked there mine
  · intro other slots view placed there mine
    rcases update_eq_some there with ⟨rfl, same⟩ | ⟨-, there⟩
    · exact (kept same.symm mine).2
    · exact here.fits there mine

/-- The rows a placement locks are its own or nobody's. -/
theorem Placed.lock (here : Placed vm s) (id : T) (rows : List V)
    (free : ∀ row ∈ rows, s.locks row = none ∨ s.locks row = some id) :
    Placed vm { s with locks := fun row => if row ∈ rows then some id else s.locks row } := by
  refine ⟨?_, here.fits, here.within⟩
  intro other slots view placed there mine
  have held := here.locked there mine
  show (if vm ∈ rows then some id else s.locks vm) = some other
  split
  · next inside =>
    rcases free vm inside with none | own
    · rw [none] at held
      cases held
    · exact own.symm.trans held
  · exact held

theorem Placed.release (here : Placed vm s) (id : T) (closed : s.placements id = some .closed) :
    Placed vm (s.release id) := by
  refine ⟨?_, here.fits, here.within⟩
  intro other slots view placed there mine
  have held := here.locked there mine
  have different : other ≠ id := by
    rintro rfl
    cases Option.some.inj (closed.symm.trans there)
  simp only [State.release, held, Option.some.injEq, if_neg different]

theorem placed_over (here : Placed vm s) (id : T) : Placed vm ((s.setPhase id .closed).release id) := by
  refine (here.moved id .closed nofun).release id ?_
  exact Function.update_self id _ _

theorem placed_commit {id : T} {slots : ℕ} {view : ReadView (Data V)} {placed : List V}
    (here : Placed vm s) (there : s.placements id = some (.running slots view placed)) :
    Placed vm { (s.setPhase id .closed).release id with
      data := { s.data with sites := countSites s.data placed } } := by
  have ended := placed_over here id
  have others : ∀ {other slots view theirs},
      ((s.setPhase id .closed).release id).placements other = some (.running slots view theirs) →
      vm ∈ theirs → vm ∉ placed := by
    intro other slots view theirs running mine own
    have locked := ended.locked running mine
    simp only [State.release, State.setPhase, here.locked there own, if_true] at locked
    cases locked
  have same : vm ∉ placed → countSites s.data placed vm = s.data.sites vm := by
    intro out
    rw [countSites, List.count_eq_zero_of_not_mem out, Nat.add_zero]
  refine ⟨ended.locked, ?_, ?_⟩
  · intro other slots view theirs running mine
    have fits := ended.fits running mine
    simp only [Fits, countSites] at fits ⊢
    have unchanged := same (others running mine)
    simp only [countSites] at unchanged
    rw [unchanged]
    exact fits
  · by_cases own : vm ∈ placed
    · have fits := here.fits there own
      simpa only [Fits, countSites, List.count_nil, Nat.add_zero] using fits
    · have within := here.within
      have unchanged := same own
      simp only [Fits, countSites, List.count_nil, Nat.add_zero] at unchanged within ⊢
      rw [unchanged]
      exact within

/-- Fewer sites on a server, or other servers' documents. -/
theorem Placed.data {data : Data V} (here : Placed vm s) (fewer : data.sites vm ≤ s.data.sites vm)
    (foreign : (data.vms vm).foreignSiteCount = (s.data.vms vm).foreignSiteCount)
    (most : (data.vms vm).maxSites = (s.data.vms vm).maxSites) : Placed vm { s with data := data } := by
  have kept : ∀ placed, Fits s vm placed → Fits { s with data := data } vm placed := by
    intro placed fits
    simp only [Fits, countSites] at fits ⊢
    rw [foreign, most]
    omega
  exact ⟨here.locked, fun there mine => kept _ (here.fits there mine), kept _ here.within⟩

theorem placed_step {action : Action V T} (here : Placed vm s) (sees : seesFreeSlots names s action)
    (steps : Steps names s action s') : Placed vm s' := by
  cases steps with
  | start id slots fresh =>
    refine here.moved id _ ?_
    intro slots view placed same mine
    cases same
    cases mine
  | read id slots view placed there =>
    refine here.moved id _ ?_
    intro slots' view' placed' same mine
    cases same
    exact ⟨here.locked there mine, here.fits there mine⟩
  | full id slots view placed there free =>
    have locked := here.lock id (s.candidates names) free
    refine locked.moved id _ ?_
    intro slots' view' placed' same mine
    cases same
    exact ⟨locked.locked there mine, locked.fits there mine⟩
  | place id slots view placed picked there free candidate slot =>
    have locked := here.lock id (s.candidates names) free
    refine locked.moved id _ ?_
    intro slots' view' placed' same mine
    cases same
    by_cases own : picked = vm
    · subst own
      refine ⟨if_pos candidate, ?_⟩
      have seen : (s.placements id).bind Phase.seen = some (view, placed) := by rw [there]; rfl
      exact fits_of_freeSlots (sees (view, placed) seen picked (List.mem_of_mem_filter candidate) slot)
    · have earlier : vm ∈ placed := (List.mem_cons.mp mine).resolve_left (Ne.symm own)
      exact ⟨locked.locked there earlier, (fits_cons_of_ne own).mpr (here.fits there earlier)⟩
  | commit id slots view placed there => exact placed_commit here there
  | fail id slots view placed there => exact placed_over here id
  | drop other =>
    have fewer : Function.update s.data.sites other (s.data.sites other - 1) vm ≤ s.data.sites vm := by
      by_cases same : vm = other
      · subst same
        rw [Function.update_self]
        exact Nat.sub_le _ _
      · rw [Function.update_of_ne same]
    exact here.data fewer rfl rfl
  | saveServer other document most foreign =>
    have kept : (Function.update s.data.vms other document vm).foreignSiteCount =
          (s.data.vms vm).foreignSiteCount ∧
        (Function.update s.data.vms other document vm).maxSites = (s.data.vms vm).maxSites := by
      by_cases same : vm = other
      · subst same
        rw [Function.update_self]
        exact ⟨foreign, most⟩
      · rw [Function.update_of_ne same]
        exact ⟨rfl, rfl⟩
    exact here.data le_rfl kept.1 kept.2

/-! ## The capacity holds -/

/-- **A server never gets more sites than it holds** in a run in which every placement that picks sees
no free slot that is gone by then: where its sites and the foreign ones fit at the start, they fit in
every state reached. -/
theorem sites_within_capacity (names : List V) (data : Data V) (vm : V)
    (within : (data.sites vm : ℤ) + (data.vms vm).foreignSiteCount ≤ (data.vms vm).maxSites)
    (s : State V T) (reached : Reaches (step names) (seesFreeSlots names) (State.initial data) s) :
    (s.data.sites vm : ℤ) + (s.data.vms vm).foreignSiteCount ≤ (s.data.vms vm).maxSites := by
  have first : Placed vm (State.initial data : State V T) := by
    refine ⟨?_, ?_, ?_⟩
    · intro id slots view placed there
      cases there
    · intro id slots view placed there
      cases there
    · simpa only [Fits, countSites, State.initial, List.count_nil, Nat.add_zero] using within
  have placed : Placed vm s := by
    refine reached.invariant (Placed vm) first ?_
    intro here there action placed sees taken
    exact placed_step placed sees (steps_of_step taken)
  simpa only [Fits, countSites, List.count_nil, Nat.add_zero] using placed.within

/-- A server that is set up, with room for three sites of which a foreign one takes one. -/
def threeSites : VirtualMachine := ⟨true, .running, true, .installed, none, 3, 1⟩

/-- One site on it. -/
def oneSite : Data Unit := ⟨fun _ => threeSites, fun _ => 1⟩

/-- Two placements for the last slot, one after the other: the second reads once the first committed,
and waits. -/
theorem sites_within_capacity_in_turn :
    ∃ s : State Unit ℕ, Reaches (step [()]) (seesFreeSlots [()]) (State.initial oneSite) s ∧
      s.data.sites () = 2 ∧
      (s.data.sites () : ℤ) + (s.data.vms ()).foreignSiteCount ≤ (s.data.vms ()).maxSites := by
  have meets : RunMeets (step [()]) (seesFreeSlots [()]) (State.initial oneSite)
      [.start 0 1, .start 1 1, .read 0, .pick 0, .commit 0, .read 1, .pick 1, .commit 1] := by
    decide
  have seen : (run (step [()]) (State.initial oneSite)
      [.start 0 1, .start 1 1, .read 0, .pick 0, .commit 0, .read 1, .pick 1, .commit 1]).map
        (fun s => s.data.sites ()) = some 2 := by decide
  obtain ⟨s, ends, two⟩ := Option.map_eq_some_iff.mp seen
  have reached := reaches_of_run meets ends
  exact ⟨s, reached, two, sites_within_capacity [()] oneSite () (by decide) s reached⟩

/-- **The last slot is taken twice.** Both placements have read when the first commits; the second waits
for the server's row, but counts the sites of its own view. -/
theorem last_slot_placed_twice :
    ¬ ∀ s : State Unit ℕ, Reaches (step [()]) anyStep (State.initial oneSite) s →
      (s.data.sites () : ℤ) + (s.data.vms ()).foreignSiteCount ≤ (s.data.vms ()).maxSites := by
  intro within
  have seen : (run (step [()]) (State.initial oneSite)
      [.start 0 1, .start 1 1, .read 0, .read 1, .pick 0, .commit 0, .pick 1, .commit 1]).map
        (fun s : State Unit ℕ => decide ((s.data.sites () : ℤ) + (s.data.vms ()).foreignSiteCount ≤
          (s.data.vms ()).maxSites)) = some false := by decide
  obtain ⟨s, ends, more⟩ := Option.map_eq_some_iff.mp seen
  have fits := within s (reaches_of_run (runMeets_of_forall fun _ _ _ => trivial) ends)
  exact of_decide_eq_false more fits

end SuiteCloud.Hosting.Placement
