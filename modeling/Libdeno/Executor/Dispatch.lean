import Libdeno.Executor.Result
import Libdeno.Subprocess.Supervised

/-!
# Libdeno.Executor.Dispatch

`ExecutorDispatch::execute_submission`: what is decided of a request before a backend is called
(`plan`), the call, and the result or failure made of what it comes to. The in-process backend
enters by what it returns for the options and the deadline it is given; the subprocess backend is
`runSupervised`.

A request that is refused calls no backend. A backend is called with the options of the request,
pinned to the directory of the project, and with the earlier of the deadlines of the request and
the options, however the clock moves between its readings. What comes back reports truly: the
backend that was called, whether there was a child, and no stream that was not asked for
(`dispatch_settles`).
-/

namespace Libdeno.Executor

open Hoare Subprocess Supervisor

/-! ### What a backend returns -/

/-- `CapturedOutput`. -/
structure CapturedOutput where
  stdout : List UInt8
  stderr : List UInt8
  truncated : Bool
  deriving Repr, DecidableEq

/-- `CapturedRunError`. -/
structure CapturedRunError where
  error : LibdenoError
  output : Option CapturedOutput
  deriving Repr, DecidableEq

/-- `if capture { bytes } else { Vec::new() }`. -/
def requested (capture : Bool) (bytes : List UInt8) : List UInt8 := if capture then bytes else []

/-- `ExecutionOutput::default()`. -/
def ExecutionOutput.default : ExecutionOutput where
  stdout := []
  stderr := []
  truncated := false
  incomplete := false
  readerError := false

/-- `supervisor_execution_output`. -/
def supervisorExecutionOutput (partialOutput : Option SupervisorPartialOutput)
    (options : LibdenoOptions) : ExecutionOutput :=
  match partialOutput with
  | none => .default
  | some output => {
      stdout := requested options.captureStdout output.stdout
      stderr := requested options.captureStderr output.stderr
      truncated := output.truncated
      incomplete := output.incomplete
      readerError := output.readerError }

/-- What an in-process run captured. -/
def capturedExecutionOutput (stdout stderr : List UInt8) (truncated : Bool)
    (options : LibdenoOptions) : ExecutionOutput where
  stdout := requested options.captureStdout stdout
  stderr := requested options.captureStderr stderr
  truncated
  incomplete := false
  readerError := false

/-- `supervisor_cleanup_strength`. -/
def supervisorCleanupStrength : CleanupStrength → ExecutionCleanupStrength
  | .directChild => .directChild
  | .processGroup => .processGroup
  | .windowsJob => .windowsJob

/-- `supervisor_transport_status`. -/
def supervisorTransportStatus : SupervisorTransportStatus → ExecutionTransportStatus
  | .clean => .clean
  | .failed => .failed

/-! ### The dispatch -/

/-- `ExecutorBackend`; `ExecutorBuilder::build` pairs each with its name. -/
inductive ExecutorBackend
  | inProcess
  | subprocess
  deriving Repr, DecidableEq

/-- The name of the backend. -/
def ExecutorBackend.name : ExecutorBackend → ExecutionBackend
  | .inProcess => .inProcess
  | .subprocess => .subprocess

/-- `ExecutorDispatch`. -/
structure ExecutorDispatch where
  projectDir : String
  state : ExecutorBackend
  deriving Repr, DecidableEq

/-- `ExecutionRequest`. -/
structure ExecutionRequest where
  entry : String
  options : LibdenoOptions
  deriving Repr, DecidableEq

/-- What `Instant::now` returns in turn: at the start, to `validate_execution_deadline`, for the
time that remains, and for the last check of an in-process run. -/
structure Clock where
  started : Nat
  normalized : Nat
  remaining : Nat
  checked : Nat
  deriving Repr, DecidableEq

/-- `min_deadline`, and `min_absolute_deadline`. -/
def minDeadline : Option Nat → Option Nat → Option Nat
  | some first, some second => some (min first second)
  | some first, none => some first
  | none, second => second

namespace ExecutorDispatch

/-- `report_with_metadata`. -/
def reportWithMetadata (self : ExecutorDispatch) (dispatched : Option ExecutionBackend)
    (outcome : CapabilityOutcome) (cleanupStrength : Option ExecutionCleanupStrength)
    (transportStatus : Option ExecutionTransportStatus) : ExecutionReport where
  requestedBackend := self.state.name
  dispatchedBackend := dispatched
  backendOutcome := outcome
  cleanupStrength
  transportStatus

/-- `report`. -/
def report (self : ExecutorDispatch) (dispatched : Option ExecutionBackend)
    (outcome : CapabilityOutcome) : ExecutionReport :=
  self.reportWithMetadata dispatched outcome none none

/-- `failure`. -/
def failure (self : ExecutorDispatch) (dispatched : Option ExecutionBackend)
    (error : LibdenoError) : ExecutionFailure where
  error := .libdeno error
  report := self.report dispatched .failed
  partialOutput := none

/-- The check of a request's directory. -/
def checkCwd (self : ExecutorDispatch) (host : Host) : Option String → Except LibdenoError Unit
  | none => .ok ()
  | some cwd => do
      let canonical ← (host.canonicalize cwd).mapError .io
      refuseIf (canonical ≠ self.projectDir)
        (.configuration (s!"execution request cwd {cwd} does not match executor project " ++
          s!"directory {self.projectDir}"))

/-- The options of a request, in the directory of the project. -/
def pinned (self : ExecutorDispatch) (request : ExecutionRequest) : LibdenoOptions :=
  { request.options with cwd := some self.projectDir }

/-- `normalize_options`. -/
def normalizeOptions (self : ExecutorDispatch) (host : Host) (clock : Clock)
    (request : ExecutionRequest) : Except LibdenoError LibdenoOptions := do
  Host.validateExecutionDeadline { host with now := clock.normalized }
    request.options.executionDeadline
  self.checkCwd host request.options.cwd
  return self.pinned request

/-- `absolute_execution_deadline`. -/
def absoluteExecutionDeadline (host : Host) (clock : Clock) (requestDeadline : Option Nat) :
    Option Nat → Except Unit (Option Nat)
  | none => .ok (minDeadline requestDeadline none)
  | some duration =>
      if host.lastInstant < clock.started + duration then .error ()
      else .ok (minDeadline requestDeadline (some (clock.started + duration)))

/-- The deadline an in-process run is given. -/
def inProcessDeadline (self : ExecutorDispatch) (host : Host) (clock : Clock)
    (deadline executionDeadline : Option Nat) : Except LibdenoError (Option Nat) :=
  match self.state with
  | .subprocess => .ok none
  | .inProcess =>
      (absoluteExecutionDeadline host clock deadline executionDeadline).mapError
        fun _ => .configuration "execution deadline is too large for the host clock"

/-- `execute_submission` up to the call of the backend: its options, and the deadline of an
in-process run. -/
def plan (self : ExecutorDispatch) (host : Host) (clock : Clock) (request : ExecutionRequest)
    (deadline : Option Nat) : Except LibdenoError (LibdenoOptions × Option Nat) := do
  let options ← self.normalizeOptions host clock request
  let remaining := deadline.map (· - clock.remaining)
  refuseIf (remaining.any (· = 0)) (.timeout "execution request deadline exceeded")
  let inProcessDeadline ← self.inProcessDeadline host clock deadline options.executionDeadline
  refuseIf (inProcessDeadline.any (· ≤ clock.checked))
    (.timeout "execution request deadline exceeded")
  return ({ options with executionDeadline := minDeadline options.executionDeadline remaining },
    inProcessDeadline)

/-- `finish`, with `result_with_metadata` and `captured_execution_failure`. -/
def finish (self : ExecutorDispatch) (result : Except CapturedRunError RunOutput)
    (options : LibdenoOptions) : Outcome :=
  match result with
  | .ok output => .ok {
      exitCode := output.exitCode
      output := capturedExecutionOutput output.stdout output.stderr output.captureTruncated options
      report := self.report (some self.state.name) .used }
  | .error failure => .error {
      error := .libdeno failure.error
      report := self.report (some self.state.name) .failed
      partialOutput := failure.output.map fun captured =>
        capturedExecutionOutput captured.stdout captured.stderr captured.truncated options }

/-- `finish_supervised`. -/
def finishSupervised (self : ExecutorDispatch)
    (result : Except SupervisedSubprocessError SupervisorRunResult) (options : LibdenoOptions) :
    Outcome :=
  match result with
  | .ok supervised => .ok {
      exitCode := supervised.exitCode
      output := supervisorExecutionOutput supervised.partialOutput options
      report := self.reportWithMetadata (some .subprocess) .used
        (some (supervisorCleanupStrength supervised.cleanupStrength))
        (some (supervisorTransportStatus supervised.transportStatus)) }
  | .error failure => .error {
      error := match failure.category with
        | none => .libdeno failure.error
        | some category => .supervisor category
      report := self.reportWithMetadata (some .subprocess) .failed
        (failure.cleanupStrength.map supervisorCleanupStrength)
        (failure.transportStatus.map supervisorTransportStatus)
      partialOutput := failure.partialOutput.map fun output =>
        supervisorExecutionOutput (some output) options }

/-- `execute_submission`. -/
def executeSubmission (self : ExecutorDispatch) (host : Host) (clock : Clock)
    (request : ExecutionRequest) (deadline : Option Nat) (calls : Calls)
    (inProcess : LibdenoOptions → Option Nat → Except CapturedRunError RunOutput) :
    Sys Outcome := do
  match self.plan host clock request deadline with
  | .error error => return .error (self.failure none error)
  | .ok (options, inProcessDeadline) =>
      match self.state with
      | .inProcess => return self.finish (inProcess options inProcessDeadline) options
      | .subprocess =>
          let result ← runSupervised host request.entry options
            { calls with parentDeadline := deadline }
          return self.finishSupervised result options

end ExecutorDispatch

/-! ### What is decided before the call -/

variable {executor : ExecutorDispatch} {host : Host} {clock : Clock} {request : ExecutionRequest}
  {deadline : Option Nat}

/-- The readings of one clock, up to the one the subprocess backend begins with. -/
structure Clock.Monotone (clock : Clock) (host : Host) : Prop where
  normalized : clock.started ≤ clock.normalized
  remaining : clock.normalized ≤ clock.remaining
  checked : clock.remaining ≤ clock.checked
  host : clock.checked ≤ host.now

/-- A request that may run here: its deadline can be told, and its directory is the project's. -/
structure Fits (executor : ExecutorDispatch) (host : Host) (clock : Clock)
    (request : ExecutionRequest) : Prop where
  deadline : ∀ duration, request.options.executionDeadline = some duration →
    clock.normalized + duration ≤ host.lastInstant
  cwd : ∀ cwd, request.options.cwd = some cwd → host.canonicalize cwd = .ok executor.projectDir

theorem checkCwd_ok {cwd : Option String} :
    executor.checkCwd host cwd = .ok () ↔
      ∀ given, cwd = some given → host.canonicalize given = .ok executor.projectDir := by
  cases cwd with
  | none => simp [ExecutorDispatch.checkCwd]
  | some cwd => simp [ExecutorDispatch.checkCwd, except_bind_ok, mapError_ok]

theorem validateExecutionDeadline_ok {duration : Option Nat} :
    host.validateExecutionDeadline duration = .ok () ↔
      ∀ d, duration = some d → host.now + d ≤ host.lastInstant := by
  cases duration <;> simp [Host.validateExecutionDeadline]

theorem normalizeOptions_ok {options : LibdenoOptions} :
    executor.normalizeOptions host clock request = .ok options ↔
      Fits executor host clock request ∧ options = executor.pinned request := by
  rw [ExecutorDispatch.normalizeOptions, except_bind_ok]
  constructor
  · rintro ⟨⟨⟩, hdeadline, h⟩
    obtain ⟨⟨⟩, hcwd, h⟩ := except_bind_ok.mp h
    exact ⟨⟨validateExecutionDeadline_ok.mp hdeadline, checkCwd_ok.mp hcwd⟩, (Except.ok.inj h).symm⟩
  · rintro ⟨fits, rfl⟩
    refine ⟨(), validateExecutionDeadline_ok.mpr fits.deadline, ?_⟩
    exact except_bind_ok.mpr ⟨(), checkCwd_ok.mpr fits.cwd, rfl⟩

/-- The options a backend is called with. -/
def ExecutorDispatch.shortened (executor : ExecutorDispatch) (clock : Clock)
    (request : ExecutionRequest) (deadline : Option Nat) : LibdenoOptions :=
  { executor.pinned request with
    executionDeadline :=
      minDeadline request.options.executionDeadline (deadline.map (· - clock.remaining)) }

/-- A backend is called: the request fits, and no deadline has passed. -/
theorem plan_ok {options : LibdenoOptions} {inProcessDeadline : Option Nat} :
    executor.plan host clock request deadline = .ok (options, inProcessDeadline) ↔
      Fits executor host clock request ∧ (∀ t, deadline = some t → clock.remaining < t) ∧
        executor.inProcessDeadline host clock deadline request.options.executionDeadline =
          .ok inProcessDeadline ∧
        (∀ t, inProcessDeadline = some t → clock.checked < t) ∧
        options = executor.shortened clock request deadline := by
  have hremaining : (deadline.map (· - clock.remaining)).any (· = 0) = false ↔
      ∀ t, deadline = some t → clock.remaining < t := by
    cases deadline with
    | none => simp
    | some t =>
        simp
        omega
  have hchecked : ∀ at' : Option Nat, at'.any (· ≤ clock.checked) = false ↔
      ∀ t, at' = some t → clock.checked < t := fun at' => by
    cases at' <;> simp
  rw [ExecutorDispatch.plan, except_bind_ok]
  constructor
  · rintro ⟨normalized, hnormalized, h⟩
    obtain ⟨fits, rfl⟩ := normalizeOptions_ok.mp hnormalized
    obtain ⟨⟨⟩, htime, h⟩ := except_bind_ok.mp h
    obtain ⟨at', hat, h⟩ := except_bind_ok.mp h
    obtain ⟨⟨⟩, hlate, h⟩ := except_bind_ok.mp h
    obtain ⟨rfl, rfl⟩ := Prod.mk.inj (Except.ok.inj h)
    exact ⟨fits, hremaining.mp (refuseIf_ok.mp htime), hat,
      (hchecked _).mp (refuseIf_ok.mp hlate), rfl⟩
  · rintro ⟨fits, htime, hat, hlate, rfl⟩
    refine ⟨executor.pinned request, normalizeOptions_ok.mpr ⟨fits, rfl⟩, ?_⟩
    refine except_bind_ok.mpr ⟨(), refuseIf_ok.mpr (hremaining.mpr htime), ?_⟩
    refine except_bind_ok.mpr ⟨inProcessDeadline, hat, ?_⟩
    exact except_bind_ok.mpr ⟨(), refuseIf_ok.mpr ((hchecked _).mpr hlate), rfl⟩

/-- An in-process run ends at the earlier of the deadline of the request and the start of the
dispatch with the duration of the options: a clock that does not go back can tell it. -/
theorem inProcessDeadline_eq (hstate : executor.state = .inProcess) (monotone : clock.Monotone host)
    (fits : Fits executor host clock request) :
    executor.inProcessDeadline host clock deadline request.options.executionDeadline =
      .ok (minDeadline deadline (request.options.executionDeadline.map (clock.started + ·))) := by
  have horder := monotone.normalized
  unfold ExecutorDispatch.inProcessDeadline
  rw [hstate]
  dsimp only
  cases hduration : request.options.executionDeadline with
  | none => rfl
  | some duration =>
      have htold := fits.deadline duration hduration
      rw [ExecutorDispatch.absoluteExecutionDeadline, if_neg (by omega)]
      rfl

theorem effectiveSupervisorDeadline_ok {duration effective : Option Nat}
    (h : host.effectiveSupervisorDeadline deadline duration = .ok effective) :
    effective = minDeadline deadline (duration.map (host.now + ·)) := by
  unfold Host.effectiveSupervisorDeadline at h
  cases duration with
  | none =>
      cases h
      cases deadline <;> rfl
  | some duration =>
      dsimp only at h
      split at h
      · cases h
      · cases h
        cases deadline <;> rfl

/-- A supervised run ends at the earlier of the deadline of the request and its own start with
the duration of the options; that this was shortened before makes no difference. -/
theorem effectiveSupervisorDeadline_shortened (monotone : clock.Monotone host)
    {effective : Option Nat}
    (h : host.effectiveSupervisorDeadline deadline
      (executor.shortened clock request deadline).executionDeadline = .ok effective) :
    effective =
      minDeadline deadline (request.options.executionDeadline.map (host.now + ·)) := by
  have horder := monotone.checked.trans monotone.host
  have hshortened : (executor.shortened clock request deadline).executionDeadline =
      minDeadline request.options.executionDeadline (deadline.map (· - clock.remaining)) := rfl
  rw [effectiveSupervisorDeadline_ok h, hshortened]
  cases request.options.executionDeadline with
  | none =>
      cases deadline with
      | none => rfl
      | some t =>
          simp only [minDeadline, Option.map_some, Option.map_none, Option.some.injEq]
          omega
  | some duration =>
      cases deadline with
      | none => rfl
      | some t =>
          simp only [minDeadline, Option.map_some, Option.some.injEq]
          omega

/-! ### What is made of the answer -/

/-- The report of an answer is that of this dispatch. -/
structure Reported (executor : ExecutorDispatch) (dispatched : Option ExecutionBackend)
    (answer : Outcome) : Prop where
  requested : answer.report.requestedBackend = executor.state.name
  dispatched : answer.report.dispatchedBackend = dispatched
  outcome : answer.report.backendOutcome = if answer.isOk then .used else .failed

/-- The output of an answer. -/
def Outcome.output : Outcome → Option ExecutionOutput
  | .ok result => some result.output
  | .error failure => failure.partialOutput

/-- A stream that was not asked for has nothing. -/
def Unleaked (options : LibdenoOptions) (answer : Outcome) : Prop :=
  ∀ output, answer.output = some output →
    (options.captureStdout = false → output.stdout = []) ∧
      (options.captureStderr = false → output.stderr = [])

/-- What an answer says of the cleanup of a child: the strength for a child that was there, with a
status of the transport, and neither for none. -/
def ReportsCleanup (answer : Outcome) (child : Prop) : Prop :=
  (child → answer.report.cleanupStrength = some .directChild ∧
    answer.report.transportStatus.isSome = true) ∧
  (¬ child → answer.report.cleanupStrength = none ∧ answer.report.transportStatus = none)

theorem finish_reported (result : Except CapturedRunError RunOutput) (options : LibdenoOptions) :
    Reported executor (some executor.state.name) (executor.finish result options) := by
  cases result <;> exact ⟨rfl, rfl, rfl⟩

theorem finishSupervised_reported (hstate : executor.state = .subprocess)
    (result : Except SupervisedSubprocessError SupervisorRunResult) (options : LibdenoOptions) :
    Reported executor (some executor.state.name) (executor.finishSupervised result options) := by
  rw [hstate]
  cases result <;> exact ⟨rfl, rfl, rfl⟩

theorem finish_unleaked (result : Except CapturedRunError RunOutput) (options : LibdenoOptions) :
    Unleaked options (executor.finish result options) := by
  intro output houtput
  rcases result with ⟨error, - | captured⟩ | result
  · cases houtput
  · cases houtput
    exact ⟨fun h => if_neg (by simp [h]), fun h => if_neg (by simp [h])⟩
  · cases houtput
    exact ⟨fun h => if_neg (by simp [h]), fun h => if_neg (by simp [h])⟩

theorem supervisorExecutionOutput_unleaked (partialOutput : Option SupervisorPartialOutput)
    (options : LibdenoOptions) :
    (options.captureStdout = false →
        (supervisorExecutionOutput partialOutput options).stdout = []) ∧
      (options.captureStderr = false →
        (supervisorExecutionOutput partialOutput options).stderr = []) := by
  cases partialOutput with
  | none => exact ⟨fun _ => rfl, fun _ => rfl⟩
  | some output => exact ⟨fun h => if_neg (by simp [h]), fun h => if_neg (by simp [h])⟩

theorem finishSupervised_unleaked (result : Except SupervisedSubprocessError SupervisorRunResult)
    (options : LibdenoOptions) :
    Unleaked options (executor.finishSupervised result options) := by
  intro output houtput
  cases result with
  | ok result =>
      cases houtput
      exact supervisorExecutionOutput_unleaked _ _
  | error failure =>
      obtain ⟨captured, -, rfl⟩ := Option.map_eq_some_iff.mp houtput
      exact supervisorExecutionOutput_unleaked _ _

theorem finishSupervised_cleanup {result : Except SupervisedSubprocessError SupervisorRunResult}
    {options : LibdenoOptions} {w : World}
    (h : (w.child = none ∧ ReportsNoChild result) ∨ (Spawned w ∧ ReportsChild result)) :
    ReportsCleanup (executor.finishSupervised result options) (Spawned w) := by
  rcases h with ⟨hnone, hreports⟩ | ⟨hspawned, hreports⟩
  · refine ⟨fun hspawned => absurd hnone hspawned, fun _ => ?_⟩
    cases result with
    | ok result => exact hreports.elim
    | error failure =>
        simp [ExecutorDispatch.finishSupervised, Outcome.report,
          ExecutorDispatch.reportWithMetadata, hreports.1, hreports.2]
  · refine ⟨fun _ => ?_, fun hnot => absurd hspawned hnot⟩
    cases result with
    | ok result =>
        have hstrength : result.cleanupStrength = .directChild := hreports
        simp [ExecutorDispatch.finishSupervised, Outcome.report,
          ExecutorDispatch.reportWithMetadata, hstrength, supervisorCleanupStrength]
    | error failure =>
        simp [ExecutorDispatch.finishSupervised, Outcome.report,
          ExecutorDispatch.reportWithMetadata, hreports.1, hreports.2, supervisorCleanupStrength]

/-! ### The whole dispatch -/

/-- When a backend is called, and what it is given. -/
structure Planned (executor : ExecutorDispatch) (host : Host) (clock : Clock)
    (request : ExecutionRequest) (deadline : Option Nat) : Prop where
  /-- It is called exactly if the request fits and no deadline has passed. -/
  called : (∃ options inProcessDeadline,
      executor.plan host clock request deadline = .ok (options, inProcessDeadline)) ↔
    Fits executor host clock request ∧ (∀ t, deadline = some t → clock.remaining < t) ∧
      (executor.state = .inProcess → ∀ t,
        minDeadline deadline (request.options.executionDeadline.map (clock.started + ·)) = some t →
        clock.checked < t)
  inProcess : executor.state = .inProcess → ∀ options inProcessDeadline,
    executor.plan host clock request deadline = .ok (options, inProcessDeadline) →
    inProcessDeadline =
      minDeadline deadline (request.options.executionDeadline.map (clock.started + ·))
  subprocess : ∀ options inProcessDeadline effective,
    executor.plan host clock request deadline = .ok (options, inProcessDeadline) →
    host.effectiveSupervisorDeadline deadline options.executionDeadline = .ok effective →
    effective = minDeadline deadline (request.options.executionDeadline.map (host.now + ·))

theorem planned (monotone : clock.Monotone host) :
    Planned executor host clock request deadline where
  called := by
    constructor
    · rintro ⟨options, inProcessDeadline, hplan⟩
      obtain ⟨fits, htime, hat, hlate, -⟩ := plan_ok.mp hplan
      refine ⟨fits, htime, fun hstate t ht => hlate t ?_⟩
      rw [inProcessDeadline_eq hstate monotone fits] at hat
      rw [← Except.ok.inj hat, ht]
    · rintro ⟨fits, htime, hlate⟩
      cases hstate : executor.state with
      | inProcess =>
          exact ⟨_, _, plan_ok.mpr ⟨fits, htime, inProcessDeadline_eq hstate monotone fits,
            hlate hstate, rfl⟩⟩
      | subprocess =>
          refine ⟨_, none, plan_ok.mpr ⟨fits, htime, ?_, nofun, rfl⟩⟩
          unfold ExecutorDispatch.inProcessDeadline
          rw [hstate]
  inProcess hstate options inProcessDeadline hplan := by
    obtain ⟨fits, -, hat, -, -⟩ := plan_ok.mp hplan
    rw [inProcessDeadline_eq hstate monotone fits] at hat
    exact (Except.ok.inj hat).symm
  subprocess options inProcessDeadline effective hplan heffective := by
    obtain ⟨-, -, -, -, rfl⟩ := plan_ok.mp hplan
    exact effectiveSupervisorDeadline_shortened monotone heffective

/-- What a dispatch owes its caller. -/
structure DispatchSettled (executor : ExecutorDispatch) (host : Host) (clock : Clock)
    (request : ExecutionRequest) (deadline : Option Nat) (calls : Calls)
    (inProcess : LibdenoOptions → Option Nat → Except CapturedRunError RunOutput)
    (before : World) (answer : Outcome) (after : World) : Prop where
  accounted : Accounted after
  /-- A request that is refused leaves everything as it is. -/
  refused : ∀ error, executor.plan host clock request deadline = .error error →
    answer = .error (executor.failure none error) ∧ after = before
  /-- One that is not has the options of the request, in the directory of the project. -/
  called : ∀ options inProcessDeadline,
    executor.plan host clock request deadline = .ok (options, inProcessDeadline) →
    options = executor.shortened clock request deadline ∧
      Reported executor (some executor.state.name) answer ∧
      (executor.state = .inProcess →
        answer = executor.finish (inProcess options inProcessDeadline) options ∧ after = before)
  unleaked : Unleaked request.options answer
  cleanup : ReportsCleanup answer (Spawned after)
  succeeds : executor.state = .subprocess → ∀ result, answer = .ok result →
    ∃ outcome status forcedKill output, calls.session = .ok outcome ∧ ReapedWith status after ∧
      mapSupervisorTerminalWithCancellation outcome.terminal (status.code.map Int32.toInt)
        forcedKill outcome.cancellationBeforeTerminal = .ok output ∧
      result.exitCode = output.exitCode

variable {calls : Calls}
  {inProcess : LibdenoOptions → Option Nat → Except CapturedRunError RunOutput} {w : World}

theorem executeSubmission_refused (hchild : w.child = none) {error : LibdenoError}
    (hplan : executor.plan host clock request deadline = .error error) :
    DispatchSettled executor host clock request deadline calls inProcess w
      (.error (executor.failure none error)) w where
  accounted := .inl hchild
  refused error' h := by
    rw [hplan] at h
    cases h
    exact ⟨rfl, rfl⟩
  called options inProcessDeadline h := by
    rw [hplan] at h
    cases h
  unleaked output houtput := by cases houtput
  cleanup := ⟨fun hspawned => absurd hchild hspawned, fun _ => ⟨rfl, rfl⟩⟩
  succeeds _ result hresult := by cases hresult

theorem executeSubmission_inProcess (hchild : w.child = none) (hstate : executor.state = .inProcess)
    {options : LibdenoOptions} {inProcessDeadline : Option Nat}
    (hplan : executor.plan host clock request deadline = .ok (options, inProcessDeadline)) :
    DispatchSettled executor host clock request deadline calls inProcess w
      (executor.finish (inProcess options inProcessDeadline) options) w where
  accounted := .inl hchild
  refused error h := by
    rw [hplan] at h
    cases h
  called options' inProcessDeadline' h := by
    rw [hplan] at h
    cases h
    exact ⟨(plan_ok.mp hplan).2.2.2.2, finish_reported _ _, fun _ => ⟨rfl, rfl⟩⟩
  unleaked := by
    have hoptions := (plan_ok.mp hplan).2.2.2.2
    intro output houtput
    have hnone := finish_unleaked _ _ output houtput
    rwa [hoptions] at hnone
  cleanup := by
    refine ⟨fun hspawned => absurd hchild hspawned, fun _ => ?_⟩
    cases inProcess options inProcessDeadline <;> exact ⟨rfl, rfl⟩
  succeeds hsubprocess := by
    rw [hstate] at hsubprocess
    cases hsubprocess

theorem executeSubmission_subprocess (hstate : executor.state = .subprocess)
    {options : LibdenoOptions} {inProcessDeadline : Option Nat}
    (hplan : executor.plan host clock request deadline = .ok (options, inProcessDeadline))
    {result : Except SupervisedSubprocessError SupervisorRunResult} {after : World}
    (haccounted : Accounted after)
    (hchild : (after.child = none ∧ ReportsNoChild result) ∨ (Spawned after ∧ ReportsChild result))
    (hsucceeds : Succeeds { calls with parentDeadline := deadline } result after) :
    DispatchSettled executor host clock request deadline calls inProcess w
      (executor.finishSupervised result options) after where
  accounted := haccounted
  refused error h := by
    rw [hplan] at h
    cases h
  called options' inProcessDeadline' h := by
    rw [hplan] at h
    cases h
    refine ⟨(plan_ok.mp hplan).2.2.2.2, finishSupervised_reported hstate _ _, fun hin => ?_⟩
    rw [hstate] at hin
    cases hin
  unleaked := by
    have hoptions := (plan_ok.mp hplan).2.2.2.2
    intro output houtput
    have hnone := finishSupervised_unleaked _ _ output houtput
    rwa [hoptions] at hnone
  cleanup := finishSupervised_cleanup hchild
  succeeds _ answer hanswer := by
    cases result with
    | error failure => cases hanswer
    | ok supervised =>
        cases hanswer
        exact hsucceeds supervised rfl

/-- An executor of a project, the readings of a dispatch, and a request. -/
def sampleDispatch : ExecutorDispatch := { projectDir := "/srv", state := .subprocess }

def sampleClock : Clock where
  started := 900
  normalized := 910
  remaining := 950
  checked := 960

def sampleExecution : ExecutionRequest := { entry := "main.ts", options := sampleOptions }

end Libdeno.Executor
