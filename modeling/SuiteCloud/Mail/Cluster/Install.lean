/-
**The last server switches the cluster on.**

`mark_token_installed` of `suite_cloud/telemetry/install.py` and `mark_scanner_installed` of
`suite_cloud/mail/cluster/rspamd.py`. The callback of a job that wrote a node's token, or its scanner,
marks the node; where it was the last one without, the cluster's plan is pushed. Both ask before and
after their own write, in the view of their transaction.

* `hasEvery` — every running node has what is installed, over the rows a transaction sees.
* `decides` — whether a callback queues a push once it is committed.
* `last_server_switches_on` — **the last of the commits is followed by a push** in a run in which every
  callback that commits has seen what is committed of its kind.
* `both_see_the_other_missing` — two callbacks that overlap, and no push.

The row's other fields, and the servers of a gateway, which is its own only server, are left out.
-/

import SuiteCloud.Library.Maps
import SuiteCloud.Library.ReadView
import SuiteCloud.Library.Transition

set_option linter.unusedSectionVars false

namespace SuiteCloud.Mail.Cluster.Install

open SuiteCloud.Library

/-! ## Nodes -/

/-- What a job installs. -/
inductive Kind
  | token
  | scanner
  deriving DecidableEq

/-- A Stalwart Node; `running` is a status in `RUNNING_STATUSES`. -/
structure Node where
  running : Bool
  suiteCloudTokenInstalled : Bool
  outboundScannerInstalled : Bool
  deriving DecidableEq

def Node.installed (node : Node) : Kind → Bool
  | .token => node.suiteCloudTokenInstalled
  | .scanner => node.outboundScannerInstalled

/-- The callback's `db_set`. -/
def Node.install (node : Node) : Kind → Node
  | .token => { node with suiteCloudTokenInstalled := true }
  | .scanner => { node with outboundScannerInstalled := true }

variable {N : Type} [DecidableEq N]

/-- `has_every_token` and `has_every_scanner` of the cluster whose nodes have these names. -/
def hasEvery (names : List N) (kind : Kind) (nodes : N → Node) : Bool :=
  names.all fun name => !(nodes name).running || (nodes name).installed kind

/-- The rows with one node marked. -/
def install (nodes : N → Node) (kind : Kind) (name : N) : N → Node :=
  Function.update nodes name ((nodes name).install kind)

/-- **A callback asks for a push** that saw a node missing before its write and none after it. -/
def decides (names : List N) (kind : Kind) (name : N) (view : N → Node) : Bool :=
  !hasEvery names kind view && hasEvery names kind (install view kind name)

/-! ## The plan -/

/-- Telemetry, and an outbound scan mode other than Off. -/
structure Config where
  telemetryEnabled : Bool
  outboundScan : Bool

/-- What a plan switches on: the sending-limit hook, the WebHooks and the milter. -/
structure Plan where
  hook : Bool
  webHooks : Bool
  milter : Bool
  deriving DecidableEq

/-- The plan a push renders from the rows it reads. -/
def plan (config : Config) (names : List N) (nodes : N → Node) : Plan where
  hook := hasEvery names .token nodes
  webHooks := config.telemetryEnabled && hasEvery names .token nodes
  milter := config.outboundScan && hasEvery names .scanner nodes

/-! ## Callbacks -/

/-- Where a callback stands. -/
inductive Phase (N : Type)
  /-- Before its write. -/
  | reading (view : ReadView (N → Node))
  /-- The node is marked, and both questions are answered from the view. -/
  | written (view : N → Node)
  /-- Committed; what is to run after the commit comes next. -/
  | committed (pushes : Bool)
  | closed

inductive Event (N : Type)
  | commit (kind : Kind) (name : N)
  /-- A push is queued. -/
  | push
  deriving DecidableEq

/-- The committed rows, the callback of each node and kind, and the commits and pushes so far, newest
first. -/
structure State (N : Type) where
  nodes : N → Node
  callbacks : Kind × N → Option (Phase N)
  log : List (Event N)

def State.initial (nodes : N → Node) : State N := ⟨nodes, fun _ => none, []⟩

inductive Action (N : Type)
  /-- The job of a running node that lacks it has succeeded: its callback begins. -/
  | start (kind : Kind) (name : N)
  /-- A plain read. -/
  | read (kind : Kind) (name : N)
  /-- `mark_token_installed`, `mark_scanner_installed`. -/
  | mark (kind : Kind) (name : N)
  | commit (kind : Kind) (name : N)
  /-- What was to run after the commit. -/
  | after (kind : Kind) (name : N)

/-- Moves a callback on. -/
def State.setPhase (s : State N) (kind : Kind) (name : N) (phase : Phase N) : State N :=
  { s with callbacks := Function.update s.callbacks (kind, name) (some phase) }

/-- The callback has written the node's row and not committed. -/
def State.hasWritten (s : State N) (kind : Kind) (name : N) : Bool :=
  match s.callbacks (kind, name) with
  | some (.written _) => true
  | _ => false

/-- **One step of the system.** -/
def step (names : List N) (s : State N) : Action N → Option (State N)
  | .start kind name =>
      match s.callbacks (kind, name) with
      | none =>
          if name ∈ names ∧ (s.nodes name).running ∧ (s.nodes name).installed kind = false then
            some (s.setPhase kind name (.reading .unopened))
          else none
      | some _ => none
  | .read kind name =>
      match s.callbacks (kind, name) with
      | some (.reading view) => some (s.setPhase kind name (.reading (view.read s.nodes)))
      | _ => none
  | .mark kind name =>
      match s.callbacks (kind, name) with
      | some (.reading view) =>
          -- One row: the write waits for the node's other callback.
          if s.hasWritten .token name ∨ s.hasWritten .scanner name then none
          else some (s.setPhase kind name (.written (view.sees s.nodes)))
      | _ => none
  | .commit kind name =>
      match s.callbacks (kind, name) with
      | some (.written view) =>
          some { s.setPhase kind name (.committed (decides names kind name view)) with
            nodes := install s.nodes kind name
            log := .commit kind name :: s.log }
      | _ => none
  | .after kind name =>
      match s.callbacks (kind, name) with
      | some (.committed pushes) =>
          some { s.setPhase kind name .closed with log := if pushes then .push :: s.log else s.log }
      | _ => none

def Phase.isOver : Phase N → Bool
  | .closed => true
  | _ => false

/-- **Every callback is over**, and every running node has both. -/
def State.AllOver (names : List N) (s : State N) : Prop :=
  (∀ name ∈ names, (s.nodes name).running → ∀ kind, (s.nodes name).installed kind) ∧
    ∀ entry, (s.callbacks entry).all Phase.isOver

/-- The view a callback has written in. -/
def Phase.wrote : Phase N → Option (N → Node)
  | .written view => some view
  | _ => none

/-- **The condition**: a callback that commits has seen every node that is marked by then with what it
marks. -/
def seesCommitted (names : List N) (s : State N) : Action N → Prop
  | .commit kind name => ∀ view ∈ (s.callbacks (kind, name)).bind Phase.wrote,
      ∀ other ∈ names, (s.nodes other).installed kind → (view other).installed kind
  | _ => True

instance (names : List N) (s : State N) (action : Action N) :
    Decidable (seesCommitted names s action) :=
  match action with
  | .commit kind name => inferInstanceAs (Decidable (∀ view ∈ (s.callbacks (kind, name)).bind Phase.wrote,
      ∀ other ∈ names, (s.nodes other).installed kind → (view other).installed kind))
  | .start _ _ | .read _ _ | .mark _ _ | .after _ _ => inferInstanceAs (Decidable True)

/-! ## What a step does -/

/-- **What each step can do**, with its guards. -/
inductive Steps (names : List N) (s : State N) : Action N → State N → Prop
  | start (kind : Kind) (name : N) : s.callbacks (kind, name) = none → name ∈ names →
      (s.nodes name).running → (s.nodes name).installed kind = false →
      Steps names s (.start kind name) (s.setPhase kind name (.reading .unopened))
  | read (kind : Kind) (name : N) (view : ReadView (N → Node)) :
      s.callbacks (kind, name) = some (.reading view) →
      Steps names s (.read kind name) (s.setPhase kind name (.reading (view.read s.nodes)))
  | mark (kind : Kind) (name : N) (view : ReadView (N → Node)) :
      s.callbacks (kind, name) = some (.reading view) →
      Steps names s (.mark kind name) (s.setPhase kind name (.written (view.sees s.nodes)))
  | commit (kind : Kind) (name : N) (view : N → Node) :
      s.callbacks (kind, name) = some (.written view) →
      Steps names s (.commit kind name)
        { s.setPhase kind name (.committed (decides names kind name view)) with
          nodes := install s.nodes kind name
          log := .commit kind name :: s.log }
  | after (kind : Kind) (name : N) (pushes : Bool) :
      s.callbacks (kind, name) = some (.committed pushes) →
      Steps names s (.after kind name)
        { s.setPhase kind name .closed with log := if pushes then .push :: s.log else s.log }

theorem steps_of_step {names : List N} {s s' : State N} {action : Action N}
    (taken : step names s action = some s') : Steps names s action s' := by
  cases action with
  | start kind name =>
    simp only [step] at taken
    split at taken
    case h_1 idle =>
      split at taken
      case isTrue may =>
        obtain rfl := Option.some.inj taken
        exact .start kind name idle may.1 may.2.1 may.2.2
      case isFalse => cases taken
    case h_2 => cases taken
  | read kind name =>
    simp only [step] at taken
    split at taken
    case h_1 view here =>
      obtain rfl := Option.some.inj taken
      exact .read kind name view here
    case h_2 => cases taken
  | mark kind name =>
    simp only [step] at taken
    split at taken
    case h_1 view here =>
      split at taken
      case isTrue => cases taken
      case isFalse =>
        obtain rfl := Option.some.inj taken
        exact .mark kind name view here
    case h_2 => cases taken
  | commit kind name =>
    simp only [step] at taken
    split at taken
    case h_1 view here =>
      obtain rfl := Option.some.inj taken
      exact .commit kind name view here
    case h_2 => cases taken
  | after kind name =>
    simp only [step] at taken
    split at taken
    case h_1 pushes here =>
      obtain rfl := Option.some.inj taken
      exact .after kind name pushes here
    case h_2 => cases taken

/-! ## The rows of a view -/

variable {names : List N} {kind kind' : Kind} {name other : N} {nodes view : N → Node}

theorem hasEvery_iff : hasEvery names kind nodes = true ↔
    ∀ name ∈ names, (nodes name).running → (nodes name).installed kind := by
  unfold hasEvery
  rw [List.all_eq_true]
  refine forall₂_congr fun name _ => ?_
  cases (nodes name).running <;> simp

@[simp] theorem running_install : (install nodes kind name other).running = (nodes other).running := by
  unfold install
  by_cases same : other = name
  · subst same
    rw [Function.update_self]
    cases kind <;> rfl
  · rw [Function.update_of_ne same]

theorem installed_install : (install nodes kind name other).installed kind' =
    ((nodes other).installed kind' || decide (other = name ∧ kind' = kind)) := by
  unfold install
  by_cases same : other = name
  · subst same
    rw [Function.update_self]
    cases kind <;> cases kind' <;> simp [Node.install, Node.installed]
  · rw [Function.update_of_ne same]
    simp [same]

theorem decides_of_last (member : name ∈ names) (running : (view name).running)
    (missing : (view name).installed kind = false)
    (others : ∀ other ∈ names, other ≠ name → (view other).running → (view other).installed kind) :
    decides names kind name view = true := by
  have before : hasEvery names kind view = false := by
    by_contra every
    have has := hasEvery_iff.mp (by simpa using every) name member running
    rw [missing] at has
    cases has
  have after : hasEvery names kind (install view kind name) = true := by
    refine hasEvery_iff.mpr ?_
    intro other there runs
    rw [running_install] at runs
    rw [installed_install]
    by_cases same : other = name
    · simp [same]
    · simp [others other there same runs]
  rw [decides, before, after]
  rfl

/-! ## The invariant -/

/-- What a callback that has not committed has seen. -/
def Phase.seen : Phase N → Option (N → Node)
  | .reading (.opened view) => some view
  | .written view => some view
  | _ => none

/-- A callback that has not committed. -/
def Phase.isOpen : Phase N → Bool
  | .reading _ => true
  | .written _ => true
  | _ => false

/-- **The invariant**: the last commit is to be followed by a push, or there is a node its callback has
left to another one. -/
structure Fine (names : List N) (start : N → Node) (s : State N) : Prop where
  statuses : ∀ name, (s.nodes name).running = (start name).running
  seen : ∀ kind name phase view, s.callbacks (kind, name) = some phase → phase.seen = some view →
    (∀ other, (view other).running = (start other).running) ∧ (view name).installed kind = false
  own : ∀ kind name phase, s.callbacks (kind, name) = some phase → phase.isOpen →
    name ∈ names ∧ (start name).running ∧ (s.nodes name).installed kind = false
  silent : s.log = [] → s.nodes = start
  last : ∀ kind name earlier, s.log = .commit kind name :: earlier →
    s.callbacks (kind, name) = some (.committed true) ∨
      ∃ other ∈ names, (s.nodes other).running ∧ (s.nodes other).installed kind = false

variable {start : N → Node} {s s' : State N}

theorem fine_initial (names : List N) (start : N → Node) : Fine names start (State.initial start) := by
  refine ⟨fun _ => rfl, ?_, ?_, fun _ => rfl, ?_⟩
  · intro kind name phase view there
    cases there
  · intro kind name phase there
    cases there
  · intro kind name earlier nothing
    cases nothing

/-- What a plain read of a callback sees before its write: the statuses, and its own node without. -/
theorem Fine.sees (here : Fine names start s) {kind : Kind} {name : N} {view : ReadView (N → Node)}
    (there : s.callbacks (kind, name) = some (.reading view)) :
    (∀ other, (view.sees s.nodes other).running = (start other).running) ∧
      (view.sees s.nodes name).installed kind = false := by
  cases view with
  | unopened => exact ⟨here.statuses, (here.own kind name _ there rfl).2.2⟩
  | opened old => exact here.seen kind name _ old there rfl

/-- A callback that moves on before its commit. -/
theorem Fine.moved (here : Fine names start s) (kind : Kind) (name : N) (phase : Phase N)
    (before : s.callbacks (kind, name) ≠ some (.committed true))
    (seen : ∀ view, phase.seen = some view →
      (∀ other, (view other).running = (start other).running) ∧ (view name).installed kind = false)
    (own : name ∈ names ∧ (start name).running ∧ (s.nodes name).installed kind = false) :
    Fine names start (s.setPhase kind name phase) := by
  refine ⟨here.statuses, ?_, ?_, here.silent, ?_⟩
  · intro kind' name' phase' view there sees
    rcases update_eq_some there with ⟨same, rfl⟩ | ⟨-, there⟩
    · cases same
      exact seen view sees
    · exact here.seen kind' name' phase' view there sees
  · intro kind' name' phase' there isOpen
    rcases update_eq_some there with ⟨same, rfl⟩ | ⟨-, there⟩
    · cases same
      exact own
    · exact here.own kind' name' phase' there isOpen
  · intro kind' name' earlier newest
    rcases here.last kind' name' earlier newest with pushes | missing
    · refine Or.inl ((Function.update_of_ne ?_ _ _).trans pushes)
      rintro same
      cases same
      exact before pushes
    · exact Or.inr missing

/-- **A commit**: where no node is missing any more, the callback has seen so. -/
theorem Fine.commit (here : Fine names start s) {view : N → Node}
    (there : s.callbacks (kind, name) = some (.written view))
    (sees : ∀ other ∈ names, (s.nodes other).installed kind → (view other).installed kind) :
    Fine names start { s.setPhase kind name (.committed (decides names kind name view)) with
      nodes := install s.nodes kind name
      log := .commit kind name :: s.log } := by
  obtain ⟨statuses, missing⟩ := here.seen kind name _ view there rfl
  obtain ⟨member, running, -⟩ := here.own kind name _ there rfl
  refine ⟨fun other => running_install.trans (here.statuses other), ?_, ?_, nofun, ?_⟩
  · intro kind' name' phase view' there' seen
    rcases update_eq_some there' with ⟨-, rfl⟩ | ⟨-, there'⟩
    · cases seen
    · exact here.seen kind' name' phase view' there' seen
  · intro kind' name' phase there' isOpen
    rcases update_eq_some there' with ⟨-, rfl⟩ | ⟨different, there'⟩
    · cases isOpen
    · obtain ⟨member', running', missing'⟩ := here.own kind' name' phase there' isOpen
      refine ⟨member', running', ?_⟩
      show (install s.nodes kind name name').installed kind' = false
      rw [installed_install, missing', Bool.false_or]
      refine decide_eq_false ?_
      rintro ⟨rfl, rfl⟩
      exact different rfl
  · intro kind' name' earlier newest
    obtain ⟨rfl, rfl⟩ : kind' = kind ∧ name' = name := by
      injection newest with first
      injection first with kinds names
      exact ⟨kinds.symm, names.symm⟩
    by_cases every : hasEvery names kind' (install s.nodes kind' name')
    · left
      have last : decides names kind' name' view = true := by
        refine decides_of_last member ((statuses name').trans running) missing ?_
        intro other inside apart runs
        have has := hasEvery_iff.mp every other inside
          (running_install.trans ((here.statuses other).trans ((statuses other).symm.trans runs)))
        rw [installed_install] at has
        refine sees other inside ?_
        simpa [apart] using has
      show Function.update s.callbacks (kind', name') _ (kind', name') = _
      rw [Function.update_self, last]
    · right
      rw [hasEvery_iff] at every
      push Not at every
      obtain ⟨other, inside, runs, lacks⟩ := every
      exact ⟨other, inside, runs, by simpa using lacks⟩

theorem fine_step {action : Action N} (here : Fine names start s) (sees : seesCommitted names s action)
    (steps : Steps names s action s') : Fine names start s' := by
  cases steps with
  | start kind name idle member running missing =>
    refine here.moved kind name _ (by rw [idle]; nofun) nofun ⟨member, ?_, missing⟩
    rw [← here.statuses name]
    exact running
  | read kind name view there =>
    refine here.moved kind name _ (by rw [there]; nofun) ?_ (here.own kind name _ there rfl)
    intro view' seen
    rw [ReadView.read_eq_opened] at seen
    obtain rfl := Option.some.inj seen
    exact here.sees there
  | mark kind name view there =>
    refine here.moved kind name _ (by rw [there]; nofun) ?_ (here.own kind name _ there rfl)
    intro view' seen
    obtain rfl := Option.some.inj seen
    exact here.sees there
  | commit kind name view there =>
    exact here.commit there (sees view (by rw [there]; rfl))
  | after kind name pushes there =>
    refine ⟨here.statuses, ?_, ?_, ?_, ?_⟩
    · intro kind' name' phase view there' seen
      rcases update_eq_some there' with ⟨-, rfl⟩ | ⟨-, there'⟩
      · cases seen
      · exact here.seen kind' name' phase view there' seen
    · intro kind' name' phase there' isOpen
      rcases update_eq_some there' with ⟨-, rfl⟩ | ⟨-, there'⟩
      · cases isOpen
      · exact here.own kind' name' phase there' isOpen
    · intro nothing
      cases pushes with
      | true => cases nothing
      | false => exact here.silent nothing
    · intro kind' name' earlier newest
      cases pushes with
      | true => cases newest
      | false =>
        rcases here.last kind' name' earlier newest with pushes | missing
        · refine Or.inl ((Function.update_of_ne ?_ _ _).trans pushes)
          rintro same
          cases same
          rw [there] at pushes
          cases pushes
        · exact Or.inr missing

/-! ## Switched on -/

/-- **The last server switches the cluster on** in a run in which every callback that commits has seen
what is marked by then: once every callback is over and every running node has both, the last of the
commits was followed by a push, and what a push reads from now on switches everything on. -/
theorem last_server_switches_on (config : Config) (names : List N) (nodes : N → Node)
    (lacks : ∃ name ∈ names, (nodes name).running ∧ ∃ kind, (nodes name).installed kind = false)
    (s : State N) (reached : Reaches (step names) (seesCommitted names) (State.initial nodes) s)
    (closed : s.AllOver names) :
    s.log.head? = some .push ∧
      plan config names s.nodes = ⟨true, config.telemetryEnabled, config.outboundScan⟩ := by
  have fine : Fine names nodes s := by
    refine reached.invariant (Fine names nodes) (fine_initial names nodes) ?_
    intro here there action fine sees taken
    exact fine_step fine sees (steps_of_step taken)
  obtain ⟨every, callbacks⟩ := closed
  refine ⟨?_, ?_⟩
  · cases log : s.log with
    | nil =>
      obtain ⟨name, member, running, kind, missing⟩ := lacks
      rw [← fine.silent log] at running missing
      have has := every name member running kind
      rw [missing] at has
      cases has
    | cons newest earlier =>
      cases newest with
      | push => rfl
      | commit kind name =>
        rcases fine.last kind name earlier log with pushes | ⟨other, inside, running, missing⟩
        · have done := callbacks (kind, name)
          rw [pushes] at done
          cases done
        · have has := every other inside running kind
          rw [missing] at has
          cases has
  · have all : ∀ kind, hasEvery names kind s.nodes = true := by
      intro kind
      exact hasEvery_iff.mpr fun name member running => every name member running kind
    simp only [plan, all, Bool.and_true]

/-- Two running nodes with their scanners, without a token. -/
def twoNodes : Bool → Node := fun _ => ⟨true, false, true⟩

/-- Two token callbacks, one after the other or at once. -/
def inTurn : List (Action Bool) :=
  [.start .token true, .start .token false, .mark .token true, .commit .token true, .read .token false,
    .after .token true, .mark .token false, .commit .token false, .after .token false]

def atOnce : List (Action Bool) :=
  [.start .token true, .start .token false, .read .token true, .read .token false, .mark .token true,
    .mark .token false, .commit .token true, .commit .token false, .after .token true, .after .token false]

/-- What is to see of a state of two nodes: all of it but the log. -/
def State.allOver (s : State Bool) : Bool :=
  [true, false].all fun name => [Kind.token, Kind.scanner].all fun kind =>
    (s.nodes name).installed kind && (s.callbacks (kind, name)).all Phase.isOver

theorem State.AllOver.of_two {s : State Bool} (done : s.allOver = true) : s.AllOver [true, false] := by
  simp only [State.allOver, List.all_cons, List.all_nil, Bool.and_true, Bool.and_eq_true] at done
  obtain ⟨⟨⟨token, token'⟩, scanner, scanner'⟩, ⟨token₂, token₂'⟩, scanner₂, scanner₂'⟩ := done
  refine ⟨?_, ?_⟩
  · intro name _ _ kind
    cases name <;> cases kind <;> assumption
  · rintro ⟨kind, name⟩
    cases name <;> cases kind <;> assumption

/-- The second callback reads once the first one is committed: it pushes. -/
theorem last_server_switches_on_in_turn :
    ∃ s, Reaches (step [true, false]) (seesCommitted [true, false]) (State.initial twoNodes) s ∧
      s.AllOver [true, false] ∧ s.log.head? = some .push ∧
      plan ⟨true, true⟩ [true, false] s.nodes = ⟨true, true, true⟩ := by
  have meets : RunMeets (step [true, false]) (seesCommitted [true, false]) (State.initial twoNodes)
      inTurn := by decide
  have seen : (run (step [true, false]) (State.initial twoNodes) inTurn).map State.allOver =
      some true := by decide
  obtain ⟨s, ends, done⟩ := Option.map_eq_some_iff.mp seen
  have reached := reaches_of_run meets ends
  have closed := State.AllOver.of_two done
  exact ⟨s, reached, closed, last_server_switches_on ⟨true, true⟩ [true, false] twoNodes
    ⟨true, by decide, rfl, .token, rfl⟩ s reached closed⟩

/-- **Each callback sees the other's node as missing**: both nodes have their token, and nothing was
pushed. -/
theorem both_see_the_other_missing :
    ¬ ∀ s : State Bool, Reaches (step [true, false]) anyStep (State.initial twoNodes) s →
      s.AllOver [true, false] → s.log.head? = some .push := by
  intro pushed
  have seen : (run (step [true, false]) (State.initial twoNodes) atOnce).map
      (fun s => (s.allOver, s.log)) =
      some (true, [.commit .token false, .commit .token true]) := by decide
  obtain ⟨s, ends, both⟩ := Option.map_eq_some_iff.mp seen
  injection both with done log
  have push := pushed s (reaches_of_run (runMeets_of_forall fun _ _ _ => trivial) ends)
    (State.AllOver.of_two done)
  rw [log] at push
  cases push

end SuiteCloud.Mail.Cluster.Install
