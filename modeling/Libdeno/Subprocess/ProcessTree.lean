import Libdeno.Library.Pool
import Libdeno.Library.Transition
import Libdeno.Permissions.Flags
import Libdeno.Subprocess.Request

/-!
# Libdeno.Subprocess.ProcessTree

The processes a host program starts (subprocess.rs), and the variables of the environment that
steer this library in each of them (permissions.rs, `CONTROL_ENV_VARS`).

An environment is inherited, so what a script writes to it would reach every process that is
started later: the executable it is started from, its handshake, its caches. Beside the
environment of a process stands the one it would have, had no script touched it. Where every
run was scoped the two agree on the control variables, along the whole line of processes
(`control_environment_kept`), and a host that never services child mode does not become an
unbounded tree: a process that carries the markers of a child starts none.
-/

namespace Libdeno.Subprocess.ProcessTree

open Lines Supervisor
open Permissions (PermissionsContainer PermissionsOptions PathRules Capability controlEnvVars
  buildPermissions)
open Snapshot (Str lit)

/-! ### The environment -/

/-- The environment of a process, by the names of its variables. -/
abbrev Environment := Str → Option (List UInt8)

/-- `LIBDENO_CHILD_MODE`, `LIBDENO_CHILD_TOKEN`: the markers of a child. -/
def markerVars : List Str := [lit "LIBDENO_CHILD_MODE", lit "LIBDENO_CHILD_TOKEN"]

namespace Environment

/-- `Command::env`, `set_var`. -/
def set (env : Environment) (name : Str) (value : List UInt8) : Environment :=
  Function.update env name (some value)

/-- `Command::env_remove`, `remove_var`. -/
def remove (env : Environment) (name : Str) : Environment := Function.update env name none

/-- The markers in an environment; a value that is not UTF-8 is no mode there is. -/
def markers (env : Environment) : Markers where
  mode := (env (lit "LIBDENO_CHILD_MODE")).map fun value =>
    String.ofList ((decodeUtf8 value).getD [])
  token := env (lit "LIBDENO_CHILD_TOKEN")

/-- What a process of this library does not hand on of the IPC channel it was given. -/
def withoutNodeChannel (env : Environment) : Environment :=
  ((env.remove (lit "NODE_CHANNEL_FD")).remove (lit "NODE_CHANNEL_SERIALIZATION_MODE")).remove
    (lit "LIBDENO_SPAWNED_IPC")

/-- The environment `spawn_child_request` gives a child. -/
def ofChild (env : Environment) (token : List UInt8) : Environment :=
  (env.set (lit "LIBDENO_CHILD_MODE") (encodeUtf8 (lit "1"))).withoutNodeChannel.set
    (lit "LIBDENO_CHILD_TOKEN") token

/-- The environment `spawn_supervisor_child` gives a child. -/
def ofSupervised (env : Environment) (endpoint : List UInt8) (token : SupervisorToken) :
    Environment :=
  (((env.set (lit "LIBDENO_SUPERVISOR_MODE") (encodeUtf8 (lit "1"))).set
    (lit "LIBDENO_SUPERVISOR_ENDPOINT") endpoint).set
    (lit "LIBDENO_SUPERVISOR_TOKEN") token.toHex).withoutNodeChannel

/-- The markers of a child are removed before its script runs. -/
def serviced (env : Environment) : Environment :=
  (env.remove (lit "LIBDENO_CHILD_MODE")).remove (lit "LIBDENO_CHILD_TOKEN")

/-- `maybe_handle_supervisor_mode` removes what it was given, whatever it is. -/
def supervised (env : Environment) : Environment :=
  ((env.remove (lit "LIBDENO_SUPERVISOR_MODE")).remove (lit "LIBDENO_SUPERVISOR_ENDPOINT")).remove
    (lit "LIBDENO_SUPERVISOR_TOKEN")

end Environment

/-! ### The runs -/

/-- What this library takes from the permissions of the runtime below it. -/
structure Upstream (P : Type) where
  /-- `Permissions::from_options`. -/
  fromOptions : PermissionsOptions → Except String P
  /-- `check_env` of a name: a script may set and delete the variable. -/
  checkEnv : P → Str → Bool
  /-- `check_ffi` of some path: a script may load native code. -/
  checkFfi : P → Bool

/-- A name that is denied is not granted, and native code takes a grant or somebody to ask. -/
structure Upstream.Lawful {P : Type} (up : Upstream P) : Prop where
  denied : ∀ {opts permissions name}, up.fromOptions opts = .ok permissions →
    name ∈ opts.denyEnv → up.checkEnv permissions name = false
  native : ∀ {opts permissions}, up.fromOptions opts = .ok permissions →
    opts.allow .ffi = none → opts.prompt = false → up.checkFfi permissions = false

section

variable {P : Type} (up : Upstream P)

/-- A script of the container may set and delete the variable. -/
def checkEnv (container : PermissionsContainer P) (name : Str) : Bool :=
  match container with
  | .allowAll => true
  | .new permissions => up.checkEnv permissions name

/-- A script of the container may load native code. -/
def checkFfi (container : PermissionsContainer P) : Bool :=
  match container with
  | .allowAll => true
  | .new permissions => up.checkFfi permissions

/-- `build_permissions` of the options of a run. -/
def permissionsOf (rules : PathRules) (options : LibdenoOptions) :
    Except Permissions.LibdenoError (PermissionsContainer P) :=
  buildPermissions rules up.fromOptions (options.permissions.map String.toList)
    options.allowAllPermissions options.prompt

end

/-- A run that is not given everything, nor native code, and asks nobody. -/
structure Scoped (options : LibdenoOptions) : Prop where
  allowAll : options.allowAllPermissions = false
  prompt : options.prompt = false
  args : ∀ arg ∈ options.permissions.map String.toList,
    Permissions.isAllowAllArg arg = false ∧ ¬ Permissions.Names .ffi arg

/-! ### The processes -/

/-- How a process was started: not by this library, by `spawn_child_request`, or by
`spawn_supervisor_child`; an executable is one the caller names. -/
inductive Start
  | root
  | child (token : List UInt8) (executable : Option (List UInt8))
  | supervised (executable : Option (List UInt8))
  deriving DecidableEq

/-- It was started by `spawn_child_request`. -/
def Start.isChild : Start → Bool
  | .child _ _ => true
  | _ => false

/-- A process as it is, or as it was when it started another one. -/
structure Stage (P : Type) where
  /-- `current_exe`. -/
  exe : List UInt8
  start : Start
  env : Environment
  /-- The environment without what scripts did to it. -/
  given : Environment
  /-- The tokens of the requests it has serviced, the last one first. -/
  serviced : List (List UInt8)
  /-- The runs that were begun in it, and their permissions. -/
  runs : List LibdenoOptions
  containers : List (PermissionsContainer P)
  /-- The variables the host program has set or removed. -/
  hostSets : List Str

/-- A process, with those it comes from as they were, its parent first. -/
structure Process (P : Type) where
  now : Stage P
  ancestors : List (Stage P)

namespace Process

variable {P : Type}

/-- The line of a process, itself first. -/
def line (p : Process P) : List (Stage P) := p.now :: p.ancestors

/-- The process changes its own record. -/
def modify (p : Process P) (f : Stage P → Stage P) : Process P := { p with now := f p.now }

@[simp] theorem modify_now (p : Process P) (f : Stage P → Stage P) : (p.modify f).now = f p.now :=
  rfl

@[simp] theorem modify_ancestors (p : Process P) (f : Stage P → Stage P) :
    (p.modify f).ancestors = p.ancestors := rfl

end Process

namespace Stage

variable {P : Type}

/-- A process that has just been started. -/
def fresh (exe : List UInt8) (start : Start) (env given : Environment) : Stage P where
  exe
  start
  env
  given
  serviced := []
  runs := []
  containers := []
  hostSets := []

/-- The executable of a child: the one the caller names, or `LIBDENO_HOST_EXE`, or the own one. -/
def hostExecutable (stage : Stage P) (env : Environment) (executable : Option (List UInt8)) :
    List UInt8 :=
  match executable with
  | some path => path
  | none => (env (lit "LIBDENO_HOST_EXE")).getD stage.exe

/-- `run`, as far as its permissions. -/
def beginRun (up : Upstream P) (rules : PathRules) (options : LibdenoOptions) (stage : Stage P) :
    Stage P :=
  { stage with
    runs := options :: stage.runs
    containers :=
      match permissionsOf up rules options with
      | .ok container => container :: stage.containers
      | .error _ => stage.containers }

/-- The markers go, and the run of the request begins. -/
def service (up : Upstream P) (rules : PathRules) (request : ChildRunRequest) (stage : Stage P) :
    Stage P :=
  { stage with
    env := stage.env.serviced
    given := stage.given.serviced
    serviced := request.token :: stage.serviced }.beginRun up rules request.options

/-- `maybe_handle_supervisor_mode` finds its marker. -/
def superviseStart (stage : Stage P) : Stage P :=
  { stage with env := stage.env.supervised, given := stage.given.supervised }

/-- A script sets a variable, or deletes it. -/
def scriptSets (name : Str) (value : Option (List UInt8)) (stage : Stage P) : Stage P :=
  { stage with env := Function.update stage.env name value }

/-- Native code of a script does what it likes. -/
def nativeSets (env : Environment) (stage : Stage P) : Stage P := { stage with env }

/-- The host program sets a variable, or removes it. -/
def hostSet (name : Str) (value : Option (List UInt8)) (stage : Stage P) : Stage P :=
  { stage with
    env := Function.update stage.env name value
    given := Function.update stage.given name value
    hostSets := name :: stage.hostSets }

end Stage

namespace Process

variable {P : Type}

/-- The process a parent starts, in an environment made of its own. -/
def startsWith (p : Process P) (start : Start) (executable : Option (List UInt8))
    (change : Environment → Environment) : Process P where
  now := .fresh (p.now.hostExecutable p.now.env executable) start (change p.now.env)
    (change p.now.given)
  ancestors := p.line

/-- `spawn_child_request`, from the spawn on. -/
def child (p : Process P) (token : List UInt8) (executable : Option (List UInt8)) : Process P :=
  p.startsWith (.child token executable) executable (·.ofChild token)

/-- `spawn_supervisor_child`. -/
def supervisedChild (p : Process P) (endpoint : List UInt8) (token : SupervisorToken)
    (executable : Option (List UInt8)) : Process P :=
  p.startsWith (.supervised executable) executable (·.ofSupervised endpoint token)

end Process

/-- What a process does. -/
inductive ProcessStep {P : Type} (up : Upstream P) (json : SerdeJson ChildRunRequest) :
    Unit → Process P → Unit → Process P → List (Process P) → Prop
  | child {p : Process P} {host : Host} {entry : String} {options : LibdenoOptions}
      {token payload : List UInt8} {captureStderr : Bool} {markers : Markers} {cwd : String}
      (executable : Option (List UInt8)) :
      host.childRequest p.now.env.markers json entry options (.ok token) captureStderr =
        .ok (payload, markers, cwd) →
      ProcessStep up json () p () p [p.child token executable]
  | supervisedChild {p : Process P} (endpoint : List UInt8) (token : SupervisorToken)
      (executable : Option (List UInt8)) :
      ProcessStep up json () p () p [p.supervisedChild endpoint token executable]
  | service {p : Process P} {written : List UInt8} {request : ChildRunRequest} {left : Markers}
      (rules : PathRules) :
      readRequest json written = .ok request →
      maybeHandleChildMode json p.now.env.markers (.received written) =
        .runs request.entry request.options left →
      ProcessStep up json () p () (p.modify (·.service up rules request)) []
  | superviseStart {p : Process P} :
      p.now.env (lit "LIBDENO_SUPERVISOR_MODE") ≠ none →
      ProcessStep up json () p () (p.modify (·.superviseStart)) []
  | run {p : Process P} (rules : PathRules) (options : LibdenoOptions) :
      ProcessStep up json () p () (p.modify (·.beginRun up rules options)) []
  | scriptSets {p : Process P} {container : PermissionsContainer P} (name : Str)
      (value : Option (List UInt8)) :
      container ∈ p.now.containers → checkEnv up container name = true →
      ProcessStep up json () p () (p.modify (·.scriptSets name value)) []
  | nativeSets {p : Process P} {container : PermissionsContainer P} (env : Environment) :
      container ∈ p.now.containers → checkFfi up container = true →
      ProcessStep up json () p () (p.modify (·.nativeSets env)) []
  | hostSet {p : Process P} (name : Str) (value : Option (List UInt8)) :
      ProcessStep up json () p () (p.modify (·.hostSet name value)) []

/-- A process nobody of this library started, in any environment. -/
inductive RootStart {P : Type} : Unit → Unit → List (Process P) → Prop
  | start (exe : List UInt8) (env : Environment) :
      RootStart () () [{ now := .fresh exe .root env env, ancestors := [] }]

/-- The processes of a machine, from the first one on. -/
abbrev Machine {P : Type} (up : Upstream P) (json : SerdeJson ChildRunRequest) :
    Pool Unit (Process P) → Prop :=
  Transition.Reachable (fun pool => pool.threads = [])
    (Pool.Step (ProcessStep up json) RootStart)

/-! ### What a line keeps -/

section

variable {P : Type}

/-- The processes of a line that `spawn_child_request` started. -/
def childStarts (line : List (Stage P)) : Nat := line.countP (·.start.isChild)

/-- The requests that were serviced along a line. -/
def servicedRequests (line : List (Stage P)) : Nat := (line.map (·.serviced.length)).sum

/-- How often the host program itself set or removed a marker along a line. -/
def hostMarkerSets (line : List (Stage P)) : Nat :=
  (line.map fun stage => stage.hostSets.countP (· ∈ markerVars)).sum

/-- Every run along the line was scoped. -/
def ScopedLine (line : List (Stage P)) : Prop :=
  ∀ stage ∈ line, ∀ options ∈ stage.runs, Scoped options

/-- What the caller named to start the process from, if this library started it. -/
def Start.named : Start → Option (Option (List UInt8))
  | .root => none
  | .child _ executable | .supervised executable => some executable

/-- Two environments steer this library alike. -/
def Agree (env given : Environment) : Prop := ∀ name ∈ controlEnvVars, env name = given name

/-- What is so of a process whose line is scoped. -/
structure Facts (stage : Stage P) (older : List (Stage P)) : Prop where
  agree : Agree stage.env stage.given
  depth : childStarts (stage :: older) ≤ servicedRequests (stage :: older) +
    hostMarkerSets (stage :: older) + stage.env.markers.isChild.toNat
  exe : ∀ executable, stage.start.named = some executable → ∃ parent, older.head? = some parent ∧
    stage.exe = parent.hostExecutable parent.given executable
  markers : ∀ token executable, stage.start = .child token executable →
    (∀ name ∈ stage.hostSets, name ∉ markerVars) →
    (stage.serviced = [] ∧ stage.given.markers = { mode := some "1", token := some token }) ∨
      (stage.serviced = [token] ∧ stage.given.markers = { mode := none, token := none })

/-- The containers of a process are those of its runs. -/
def Built (up : Upstream P) (stage : Stage P) : Prop :=
  ∀ container ∈ stage.containers, ∃ options ∈ stage.runs, ∃ rules,
    permissionsOf up rules options = .ok container

/-- What is so of a line, one process after the other. -/
def Sound (up : Upstream P) : List (Stage P) → Prop
  | [] => True
  | stage :: older =>
      Built up stage ∧ (ScopedLine (stage :: older) → Facts stage older) ∧ Sound up older

end

/-! ### The permissions of a scoped run -/

/-- The loop over the flags of a scoped run keeps the names that are denied, and grants no
native code. -/
theorem argumentLoop_scoped (rules : PathRules) {args : List Str} (state : Permissions.LoopState)
    (confined : ∀ arg ∈ args, Permissions.isAllowAllArg arg = false ∧ ¬ Permissions.Names .ffi arg)
    (hffi : state.opts.allow .ffi = none) :
    (∃ e, Permissions.argumentLoop rules state args = .error e) ∨
      ∃ state', Permissions.argumentLoop rules state args = .ok (.next state') ∧
        state'.opts.denyEnv = state.opts.denyEnv ∧ state'.opts.prompt = state.opts.prompt ∧
        state'.opts.allow .ffi = none := by
  induction args generalizing state with
  | nil => exact .inr ⟨state, rfl, rfl, rfl, hffi⟩
  | cons arg args ih =>
      obtain ⟨hall, hnames⟩ := confined arg List.mem_cons_self
      rw [Permissions.argumentLoop]
      cases hinvalid : Permissions.isInvalid rules arg with
      | true =>
          obtain ⟨e, he⟩ := Permissions.onArgument_invalid state hinvalid
          exact .inl ⟨e, by rw [he]⟩
      | false =>
          obtain ⟨next, hnext, -, hprompt, hdeny, hgrant⟩ :=
            Permissions.onArgument_next state hinvalid hall
          have hnone : next.opts.allow .ffi = none := by
            rw [← Permissions.slotGrant_eq_bot, hgrant, Permissions.argGrant_eq_bot.mpr hnames,
              sup_bot_eq, hffi]
            rfl
          rw [hnext, ← hprompt, ← hdeny]
          exact ih next (fun arg mem => confined arg (List.mem_cons_of_mem _ mem)) hnone

variable {P : Type} {up : Upstream P} {json : SerdeJson ChildRunRequest}

/-- The permissions of a scoped run are made of options that deny every control variable. -/
theorem permissionsOf_scoped {rules : PathRules} {options : LibdenoOptions}
    {container : PermissionsContainer P} (confined : Scoped options)
    (h : permissionsOf up rules options = .ok container) :
    ∃ opts permissions, container = .new permissions ∧ up.fromOptions opts = .ok permissions ∧
      opts.denyEnv = controlEnvVars ∧ opts.allow .ffi = none ∧ opts.prompt = false := by
  rw [permissionsOf, confined.allowAll, confined.prompt, buildPermissions,
    if_neg Bool.false_ne_true] at h
  rcases argumentLoop_scoped rules (.initial false) confined.args rfl with
    ⟨e, he⟩ | ⟨state, hloop, hdeny, hprompt, hffi⟩
  · rw [he] at h
    cases h
  · simp only [hloop] at h
    split at h
    · cases h
    · cases hpermissions : up.fromOptions state.opts with
      | error e =>
          rw [hpermissions] at h
          cases h
      | ok permissions =>
          rw [hpermissions] at h
          cases h
          exact ⟨state.opts, permissions, rfl, hpermissions, hdeny, hffi, hprompt⟩

/-- A script of a scoped run sets no control variable, and loads no native code. -/
theorem Built.confined {stage : Stage P} (lawful : up.Lawful) (built : Built up stage)
    (confined : ∀ options ∈ stage.runs, Scoped options) {container : PermissionsContainer P}
    (mem : container ∈ stage.containers) :
    (∀ name, checkEnv up container name = true → name ∉ controlEnvVars) ∧
      checkFfi up container = false := by
  obtain ⟨options, hoptions, rules, hbuilt⟩ := built container mem
  obtain ⟨opts, permissions, rfl, hpermissions, hdeny, hffi, hprompt⟩ :=
    permissionsOf_scoped (confined options hoptions) hbuilt
  refine ⟨fun name hcheck hcontrol => ?_, lawful.native hpermissions hffi hprompt⟩
  rw [checkEnv, lawful.denied hpermissions (hdeny ▸ hcontrol)] at hcheck
  cases hcheck

/-! ### The environments -/

theorem markerVars_control {name : Str} (h : name ∈ markerVars) : name ∈ controlEnvVars := by
  revert name
  decide

namespace Agree

variable {env given : Environment}

/-- The same change on both sides. -/
theorem update (h : Agree env given) (name : Str) (value : Option (List UInt8)) :
    Agree (Function.update env name value) (Function.update given name value) := by
  intro other hother
  by_cases heq : other = name
  · rw [heq, Function.update_self, Function.update_self]
  · rw [Function.update_of_ne heq, Function.update_of_ne heq, h other hother]

theorem withoutNodeChannel (h : Agree env given) :
    Agree env.withoutNodeChannel given.withoutNodeChannel :=
  ((h.update _ _).update _ _).update _ _

theorem ofChild (h : Agree env given) (token : List UInt8) :
    Agree (env.ofChild token) (given.ofChild token) :=
  (h.update _ _).withoutNodeChannel.update _ _

theorem ofSupervised (h : Agree env given) (endpoint : List UInt8) (token : SupervisorToken) :
    Agree (env.ofSupervised endpoint token) (given.ofSupervised endpoint token) :=
  (((h.update _ _).update _ _).update _ _).withoutNodeChannel

theorem serviced (h : Agree env given) : Agree env.serviced given.serviced :=
  (h.update _ _).update _ _

theorem supervised (h : Agree env given) : Agree env.supervised given.supervised :=
  ((h.update _ _).update _ _).update _ _

/-- A change of some other variable on one side. -/
theorem update_left (h : Agree env given) {name : Str} (hname : name ∉ controlEnvVars)
    (value : Option (List UInt8)) : Agree (Function.update env name value) given := by
  intro other hother
  have hne : other ≠ name := by
    rintro rfl
    exact hname hother
  rw [Function.update_of_ne hne, h other hother]

/-- The markers are control variables. -/
theorem markers (h : Agree env given) : env.markers = given.markers := by
  rw [Environment.markers, Environment.markers, h _ (markerVars_control (by decide)),
    h _ (markerVars_control (by decide))]

end Agree

namespace Environment

variable {env : Environment}

/-- A variable that is no marker leaves the markers alone. -/
theorem markers_update (env : Environment) {name : Str} (h : name ∉ markerVars)
    (value : Option (List UInt8)) :
    Environment.markers (Function.update env name value) = env.markers := by
  have hmode : lit "LIBDENO_CHILD_MODE" ≠ name := fun heq => h (heq ▸ by decide)
  have htoken : lit "LIBDENO_CHILD_TOKEN" ≠ name := fun heq => h (heq ▸ by decide)
  rw [markers, markers, Function.update_of_ne hmode, Function.update_of_ne htoken]

@[simp] theorem markers_withoutNodeChannel : env.withoutNodeChannel.markers = env.markers := by
  simp only [withoutNodeChannel, remove]
  rw [markers_update _ (by decide), markers_update _ (by decide), markers_update _ (by decide)]

@[simp] theorem markers_ofSupervised (endpoint : List UInt8) (token : SupervisorToken) :
    (env.ofSupervised endpoint token).markers = env.markers := by
  rw [ofSupervised, markers_withoutNodeChannel]
  simp only [set]
  rw [markers_update _ (by decide), markers_update _ (by decide), markers_update _ (by decide)]

@[simp] theorem markers_supervised : env.supervised.markers = env.markers := by
  simp only [supervised, remove]
  rw [markers_update _ (by decide), markers_update _ (by decide), markers_update _ (by decide)]

@[simp] theorem markers_serviced : env.serviced.markers = { mode := none, token := none } := by
  have hne : lit "LIBDENO_CHILD_MODE" ≠ lit "LIBDENO_CHILD_TOKEN" := by decide
  rw [markers, serviced, remove, remove, Function.update_of_ne hne, Function.update_self,
    Function.update_self]
  rfl

@[simp] theorem markers_ofChild (token : List UInt8) :
    (env.ofChild token).markers = { mode := some "1", token := some token } := by
  have hmode : (env.ofChild token) (lit "LIBDENO_CHILD_MODE") = some (encodeUtf8 (lit "1")) := by
    simp only [ofChild, set, withoutNodeChannel, remove]
    rw [Function.update_of_ne (by decide), Function.update_of_ne (by decide),
      Function.update_of_ne (by decide), Function.update_of_ne (by decide), Function.update_self]
  have htoken : (env.ofChild token) (lit "LIBDENO_CHILD_TOKEN") = some token := by
    rw [ofChild, set, Function.update_self]
  rw [markers, hmode, htoken, Option.map_some, decodeUtf8_encodeUtf8]
  rfl

end Environment

/-! ### What each step does to a scoped line -/

section

variable (stage : Stage P) (older : List (Stage P))

@[simp] theorem childStarts_cons :
    childStarts (stage :: older) = stage.start.isChild.toNat + childStarts older := by
  rw [childStarts, List.countP_cons, add_comm]
  cases stage.start.isChild <;> rfl

@[simp] theorem servicedRequests_cons :
    servicedRequests (stage :: older) = stage.serviced.length + servicedRequests older := rfl

@[simp] theorem hostMarkerSets_cons : hostMarkerSets (stage :: older) =
    stage.hostSets.countP (· ∈ markerVars) + hostMarkerSets older := rfl

end

namespace Facts

variable {stage : Stage P} {older : List (Stage P)}

/-- Its markers are what it was given. -/
theorem given_markers (facts : Facts stage older) : stage.given.markers = stage.env.markers :=
  facts.agree.markers.symm

theorem beginRun (facts : Facts stage older) (rules : PathRules) (options : LibdenoOptions) :
    Facts (stage.beginRun up rules options) older :=
  ⟨facts.agree, facts.depth, facts.exe, facts.markers⟩

theorem superviseStart (facts : Facts stage older) : Facts stage.superviseStart older where
  agree := facts.agree.supervised
  depth := by
    have hdepth := facts.depth
    simpa [Stage.superviseStart] using hdepth
  exe := facts.exe
  markers := by
    simpa [Stage.superviseStart] using facts.markers

/-- A serviced request is the one that is owed for the markers. -/
theorem service (facts : Facts stage older) {written : List UInt8} {request : ChildRunRequest}
    {left : Markers} (rules : PathRules) (hread : readRequest json written = .ok request)
    (hruns : maybeHandleChildMode json stage.env.markers (.received written) =
      .runs request.entry request.options left) :
    Facts (stage.service up rules request) older := by
  obtain ⟨hmode, -, written', request', hwritten, hread', -, htoken, -, -⟩ :=
    maybeHandleChildMode_runs.mp hruns
  cases hwritten
  obtain rfl : request' = request := Except.ok.inj (hread'.symm.trans hread)
  suffices cleared : Facts { stage with
      env := stage.env.serviced
      given := stage.given.serviced
      serviced := request'.token :: stage.serviced } older from cleared.beginRun rules _
  refine ⟨facts.agree.serviced, ?_, facts.exe, ?_⟩
  · have hdepth := facts.depth
    have hle := Bool.toNat_le stage.env.markers.isChild
    simp only [childStarts_cons, servicedRequests_cons, hostMarkerSets_cons,
      List.length_cons] at hdepth ⊢
    omega
  · intro token executable hstart hhost
    rcases facts.markers token executable hstart hhost with ⟨hnone, hgiven⟩ | ⟨-, hgiven⟩
    · -- the token of the request is the one the markers hold
      rw [facts.given_markers] at hgiven
      rw [hgiven] at htoken
      cases htoken
      exact .inr ⟨by rw [hnone], Environment.markers_serviced⟩
    · -- its markers are gone
      rw [facts.given_markers] at hgiven
      rw [hgiven] at hmode
      cases hmode

theorem scriptSets (facts : Facts stage older) {name : Str} (hname : name ∉ controlEnvVars)
    (value : Option (List UInt8)) : Facts (stage.scriptSets name value) older where
  agree := facts.agree.update_left hname value
  depth := by
    have hmarkers := Environment.markers_update stage.env
      (fun h => hname (markerVars_control h)) value
    have hdepth := facts.depth
    rw [← hmarkers] at hdepth
    exact hdepth
  exe := facts.exe
  markers := facts.markers

theorem hostSet (facts : Facts stage older) (name : Str) (value : Option (List UInt8)) :
    Facts (stage.hostSet name value) older where
  agree := facts.agree.update name value
  depth := by
    have hdepth := facts.depth
    simp only [childStarts_cons, servicedRequests_cons, hostMarkerSets_cons, Stage.hostSet,
      List.countP_cons] at hdepth ⊢
    by_cases hname : name ∈ markerVars
    · have hle := Bool.toNat_le stage.env.markers.isChild
      simp only [hname, decide_true, if_true]
      omega
    · rw [Environment.markers_update _ hname]
      simp only [hname, decide_false, Bool.false_eq_true, if_false]
      omega
  exe := facts.exe
  markers := by
    intro token executable hstart hhost
    obtain ⟨hname, hhost⟩ := List.forall_mem_cons.mp hhost
    have hmarkers := Environment.markers_update stage.given hname value
    simp only [Stage.hostSet, hmarkers]
    exact facts.markers token executable hstart hhost

/-- A process that this library starts in an environment that agrees with what it is given. -/
theorem started (facts : Facts stage older) {start : Start} {executable : Option (List UInt8)}
    {change : Environment → Environment} (hnamed : start.named = some executable)
    (agree : ∀ {env given : Environment}, Agree env given → Agree (change env) (change given))
    (depth : start.isChild.toNat + stage.env.markers.isChild.toNat ≤
      (change stage.env).markers.isChild.toNat)
    (markers : ∀ token executable, start = .child token executable →
      (change stage.given).markers = { mode := some "1", token := some token }) :
    Facts (.fresh (stage.hostExecutable stage.env executable) start (change stage.env)
      (change stage.given)) (stage :: older) where
  agree := agree facts.agree
  depth := by
    have hdepth := facts.depth
    rw [childStarts_cons, servicedRequests_cons, hostMarkerSets_cons]
    simp only [Stage.fresh, List.length_nil, List.countP_nil]
    omega
  exe := by
    intro executable' hnamed'
    obtain rfl : executable = executable' := Option.some.inj (hnamed.symm.trans hnamed')
    refine ⟨stage, rfl, ?_⟩
    simp only [Stage.fresh, Stage.hostExecutable]
    rw [facts.agree _ (by decide)]
  markers := fun token executable hstart _ => .inl ⟨rfl, markers token executable hstart⟩

end Facts

theorem Built.beginRun {stage : Stage P} (built : Built up stage) (rules : PathRules)
    (options : LibdenoOptions) : Built up (stage.beginRun up rules options) := by
  have hold : ∀ container ∈ stage.containers, ∃ options' ∈ options :: stage.runs, ∃ rules,
      permissionsOf up rules options' = .ok container := by
    intro container mem
    obtain ⟨options', hmem, hbuilt⟩ := built container mem
    exact ⟨options', List.mem_cons_of_mem _ hmem, hbuilt⟩
  intro container mem
  simp only [Stage.beginRun] at mem
  split at mem
  · next made hmade =>
    rcases List.mem_cons.mp mem with rfl | mem
    · exact ⟨options, List.mem_cons_self, rules, hmade⟩
    · exact hold container mem
  · exact hold container mem

namespace Sound

variable {p : Process P}

/-- A process changes its own record; no run is forgotten. -/
theorem modify {f : Stage P → Stage P} (sound : Sound up p.line)
    (built : Built up p.now → Built up (f p.now)) (runs : p.now.runs ⊆ (f p.now).runs)
    (facts : Built up p.now → (∀ options ∈ p.now.runs, Scoped options) →
      Facts p.now p.ancestors → Facts (f p.now) p.ancestors) :
    Sound up (p.modify f).line := by
  obtain ⟨hbuilt, hfacts, holder⟩ := sound
  refine ⟨built hbuilt, fun confined => ?_, holder⟩
  obtain ⟨hnow, hancestors⟩ := List.forall_mem_cons.mp confined
  have hbefore : ∀ options ∈ p.now.runs, Scoped options := fun options mem =>
    hnow options (runs mem)
  exact facts hbuilt hbefore (hfacts (List.forall_mem_cons.mpr ⟨hbefore, hancestors⟩))

/-- A process this library starts. -/
theorem startsWith {start : Start} {executable : Option (List UInt8)}
    {change : Environment → Environment} (sound : Sound up p.line)
    (facts : Facts p.now p.ancestors →
      Facts (p.startsWith start executable change).now p.line) :
    Sound up (p.startsWith start executable change).line := by
  refine ⟨fun container mem => (by cases mem), fun confined => ?_, sound⟩
  exact facts (sound.2.1 (List.forall_mem_cons.mp confined).2)

/-- What a process does keeps its line sound, and the line of a process it starts. -/
theorem step (lawful : up.Lawful) {p' : Process P} {spawned : List (Process P)}
    (move : ProcessStep up json () p () p' spawned) (sound : Sound up p.line) :
    Sound up p'.line ∧ ∀ q ∈ spawned, Sound up q.line := by
  cases move with
  | @child _ _ _ _ token _ _ _ _ executable accepted =>
      refine ⟨sound, List.forall_mem_singleton.mpr (sound.startsWith fun facts => ?_)⟩
      have hnot : p.now.env.markers.isChild = false := (Host.childRequest_ok accepted).1
      refine facts.started rfl (fun agree => agree.ofChild token) ?_ ?_
      · rw [hnot, Environment.markers_ofChild]
        exact Nat.le_refl 1
      · intro token' executable' hstart
        cases hstart
        exact Environment.markers_ofChild token
  | supervisedChild endpoint token executable =>
      refine ⟨sound, List.forall_mem_singleton.mpr (sound.startsWith fun facts => ?_)⟩
      refine facts.started rfl (fun agree => agree.ofSupervised endpoint token) ?_ ?_
      · rw [Environment.markers_ofSupervised]
        exact (Nat.zero_add _).le
      · intro token' executable' hstart
        cases hstart
  | @service _ _ request _ rules hread hruns =>
      refine ⟨sound.modify (fun built => ?_) ?_ fun _ _ facts => facts.service rules hread hruns,
        List.forall_mem_nil _⟩
      · have cleared : Built up { p.now with
            env := p.now.env.serviced
            given := p.now.given.serviced
            serviced := request.token :: p.now.serviced } := built
        exact cleared.beginRun rules _
      · exact List.subset_cons_self ..
  | superviseStart _ =>
      exact ⟨sound.modify id (List.Subset.refl _) fun _ _ facts => facts.superviseStart,
        List.forall_mem_nil _⟩
  | run rules options =>
      refine ⟨sound.modify (fun built => built.beginRun rules options) ?_
        fun _ _ facts => facts.beginRun rules options, List.forall_mem_nil _⟩
      exact List.subset_cons_self ..
  | scriptSets name value mem hcheck =>
      refine ⟨sound.modify id (List.Subset.refl _) fun built confined facts => ?_,
        List.forall_mem_nil _⟩
      exact facts.scriptSets ((built.confined lawful confined mem).1 _ hcheck) value
  | nativeSets env mem hcheck =>
      refine ⟨sound.modify id (List.Subset.refl _) fun built confined facts => ?_,
        List.forall_mem_nil _⟩
      rw [(built.confined lawful confined mem).2] at hcheck
      cases hcheck
  | hostSet name value =>
      exact ⟨sound.modify id (List.Subset.refl _) fun _ _ facts => facts.hostSet name value,
        List.forall_mem_nil _⟩

/-- A process from elsewhere. -/
theorem root (exe : List UInt8) (env : Environment) :
    Sound up [(Stage.fresh exe .root env env : Stage P)] := by
  refine ⟨fun container mem => (by cases mem), fun _ => ?_, trivial⟩
  refine ⟨fun _ _ => rfl, ?_, fun executable h => (by cases h), fun token executable h => ?_⟩
  · exact Nat.zero_le _
  · cases h

end Sound

/-- Every line on the machine is sound. -/
theorem machine_sound (lawful : up.Lawful) {pool : Pool Unit (Process P)}
    (machine : Machine up json pool) : ∀ p ∈ pool.threads, Sound up p.line := by
  refine Transition.Reachable.invariant
    (P := fun pool : Pool Unit (Process P) => ∀ p ∈ pool.threads, Sound up p.line) ?_ ?_ machine
  · intro pool hempty p mem
    rw [hempty] at mem
    cases mem
  · intro pool pool' sound step
    refine Pool.Step.threads (K := fun _ => True) (P := fun _ p => Sound up p.line) ?_ ?_ ?_ step
      trivial sound
    · intro m p m' p' spawned before after _ move hp
      exact Sound.step lawful move hp
    · intro m p m' p' spawned before after q _ _ _ _ hq
      exact hq
    · intro m m' spawned threads _ hstart
      refine ⟨fun q _ hq => hq, fun q mem => ?_⟩
      cases hstart with
      | start exe env =>
          rw [List.mem_singleton.mp mem]
          exact Sound.root exe env

/-- **Scripts do not steer what the host starts.** On a machine with any processes, in whatever
order they act: a process whose line has only had scoped runs has every control variable as its
host and its parent gave it; the executable it was started from is the one its parent named, or
was given in `LIBDENO_HOST_EXE`, or ran itself; along its line no more children were started than
requests were serviced, unless the host program changes the markers itself, but for the one it is
while it carries them; and a child services no other request than one with the token its parent
made, and that once. -/
theorem control_environment_kept (lawful : up.Lawful) {pool : Pool Unit (Process P)}
    (machine : Machine up json pool) {p : Process P} (mem : p ∈ pool.threads)
    (confined : ScopedLine p.line) :
    (∀ name ∈ controlEnvVars, p.now.env name = p.now.given name) ∧
    (∀ executable, p.now.start.named = some executable → ∃ parent,
      p.ancestors.head? = some parent ∧
        p.now.exe = parent.hostExecutable parent.given executable) ∧
    childStarts p.line ≤ servicedRequests p.line + hostMarkerSets p.line +
      p.now.env.markers.isChild.toNat ∧
    ∀ token executable, p.now.start = .child token executable →
      (∀ name ∈ p.now.hostSets, name ∉ markerVars) →
      (p.now.serviced = [] ∧ p.now.env.markers = { mode := some "1", token := some token }) ∨
        (p.now.serviced = [token] ∧ p.now.env.markers = { mode := none, token := none }) := by
  have facts : Facts p.now p.ancestors := (machine_sound lawful machine p mem).2.1 confined
  refine ⟨facts.agree, facts.exe, facts.depth, ?_⟩
  rw [← facts.given_markers]
  exact facts.markers

/-- A runtime that grants the variables that are listed, or all, but those that are denied. -/
def sampleUpstream : Upstream PermissionsOptions where
  fromOptions := .ok
  checkEnv := fun opts name =>
    name ∉ opts.denyEnv ∧ (opts.allow .env = some [] ∨ name ∈ (opts.allow .env).getD [])
  checkFfi := fun opts => opts.prompt || (opts.allow .ffi).isSome

theorem sampleUpstream_lawful : sampleUpstream.Lawful where
  denied := by
    intro opts permissions name h hdeny
    cases h
    simp [sampleUpstream, hdeny]
  native := by
    intro opts permissions h hffi hprompt
    cases h
    simp [sampleUpstream, hffi, hprompt]

/-- The options of a script that may write every other variable. -/
def scriptOptions : LibdenoOptions :=
  { LibdenoOptions.default with permissions := ["--allow-env"] }

theorem scriptOptions_scoped : Scoped scriptOptions := ⟨rfl, rfl, by decide⟩

def sampleEnv : Environment := fun name =>
  if name = lit "LIBDENO_HOST_EXE" then some (encodeUtf8 (lit "/srv/host")) else none

/-- A host, once a script of it has set a variable. -/
def sampleParent : Process PermissionsOptions where
  now := ((Stage.fresh (encodeUtf8 (lit "/srv/main")) .root sampleEnv sampleEnv).beginRun
    sampleUpstream (.unix []) scriptOptions).scriptSets (lit "GREETING") (some [104, 105])
  ancestors := []

def sampleToken : List UInt8 := randomHex (List.replicate 16 7)

/-- The host has run a script, which set a variable, and then starts a child. -/
theorem sampleMachine : Machine sampleUpstream sampleJson
    { memory := (), threads := [sampleParent, sampleParent.child sampleToken none] } := by
  have started : Machine sampleUpstream sampleJson { memory := (), threads := [] } := .start rfl
  have host := started.snoc (.environment [] (.start (encodeUtf8 (lit "/srv/main")) sampleEnv))
  have ran := host.snoc (.thread [] [] (.run (.unix []) scriptOptions))
  have wrote := ran.snoc (.thread [] [] (.scriptSets (lit "GREETING") (some [104, 105])
    List.mem_cons_self (by decide)))
  exact wrote.snoc (.thread [] [] (.child none
    (sampleRequest_accepted samplePayload samplePayload_fits)))

theorem sampleChild_scoped : ScopedLine (sampleParent.child sampleToken none).line := by
  intro stage hstage options hoptions
  simp only [Process.child, Process.startsWith, Process.line, sampleParent, List.mem_cons,
    List.not_mem_nil, or_false] at hstage
  rcases hstage with rfl | rfl
  · cases hoptions
  · simp only [Stage.scriptSets, Stage.beginRun, Stage.fresh, List.mem_singleton] at hoptions
    rw [hoptions]
    exact scriptOptions_scoped

/-- The child has the variable of the script, and is started from the executable of the host's
environment, with the token of its parent. -/
theorem control_environment_kept_sample :
    (sampleParent.child sampleToken none).now.env (lit "GREETING") = some [104, 105] ∧
    (∀ name ∈ controlEnvVars, (sampleParent.child sampleToken none).now.env name =
      (sampleParent.child sampleToken none).now.given name) ∧
    (sampleParent.child sampleToken none).now.exe = encodeUtf8 (lit "/srv/host") ∧
    childStarts (sampleParent.child sampleToken none).line ≤ 1 ∧
    (sampleParent.child sampleToken none).now.env.markers =
      { mode := some "1", token := some sampleToken } := by
  obtain ⟨hagree, hexe, hdepth, hmarkers⟩ := control_environment_kept sampleUpstream_lawful
    sampleMachine (List.mem_cons_of_mem _ List.mem_cons_self) sampleChild_scoped
  refine ⟨rfl, hagree, ?_, hdepth, ?_⟩
  · obtain ⟨parent, hparent, hexe⟩ := hexe none rfl
    cases hparent
    exact hexe
  · rcases hmarkers sampleToken none rfl (List.forall_mem_nil _) with ⟨-, h⟩ | ⟨hserviced, -⟩
    · exact h
    · cases hserviced

end Libdeno.Subprocess.ProcessTree
