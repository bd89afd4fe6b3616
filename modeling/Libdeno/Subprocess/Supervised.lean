import Libdeno.Output.Collection
import Libdeno.Subprocess.Child
import Libdeno.Subprocess.Request
import Libdeno.Supervisor.RunResult

/-!
# Libdeno.Subprocess.Supervised

A supervised run (`run_supervised_subprocess_with_executable_observed_and_started`): the checks
before the child is spawned, the spawn, the readers of its output, the session, the reaping of
the child and the collection of its output. The session itself, the transport and the clock
enter by what they come to; what the run makes of them is `supervisedRunResult`.

However these come out, and whenever the child ends, the run leaves no child behind that the
system would have let it reap; its error says that there was a child exactly if one was spawned;
it reports output exactly if capture was requested; and a run that is cancelled or late before it
begins spawns nothing (`supervised_run_settles`).
-/

namespace Libdeno.Supervisor

/-- `SupervisorPartialOutput::empty`. -/
def SupervisorPartialOutput.empty : SupervisorPartialOutput where
  stdout := []
  stderr := []
  truncated := false
  incomplete := false
  readerError := false

/-- `SupervisorPartialOutput::reader_error`. -/
def SupervisorPartialOutput.failedReader : SupervisorPartialOutput :=
  { SupervisorPartialOutput.empty with incomplete := true, readerError := true }

end Libdeno.Supervisor

namespace Libdeno.Subprocess

open Hoare Output Supervisor

/-! ### The request -/

/-- `SupervisorRequest`. -/
structure SupervisorRequest where
  entry : String
  cwd : String
  permissions : List String
  allowAllPermissions : Bool
  prompt : Bool
  args : List String
  features : Option (List String)
  maxHeapBytes : Option (BitVec 64)
  executionDeadline : Option Nat
  captureStdout : Bool
  captureStderr : Bool
  maxCaptureBytes : Option (BitVec 64)
  deriving Repr, DecidableEq

/-- `SUPERVISOR_CAPTURE_BYTES_PER_STREAM`. -/
def SUPERVISOR_CAPTURE_BYTES_PER_STREAM : BitVec 64 := 64 * 1024

/-- `SUPERVISOR_MAX_CAPTURE_BYTES_PER_STREAM`. -/
def SUPERVISOR_MAX_CAPTURE_BYTES_PER_STREAM : BitVec 64 := 96 * 1024

/-- `supervisor_capture_limit`. -/
def supervisorCaptureLimit (captureStdout captureStderr : Bool)
    (maxCaptureBytes : Option (BitVec 64)) : Except LibdenoError (Option (BitVec 64)) :=
  if !captureStdout && !captureStderr then .ok none
  else
    let limit := maxCaptureBytes.getD SUPERVISOR_CAPTURE_BYTES_PER_STREAM
    if SUPERVISOR_MAX_CAPTURE_BYTES_PER_STREAM < limit then
      .error (.configuration (s!"supervisor capture limit {limit.toNat} exceeds the " ++
        s!"{SUPERVISOR_MAX_CAPTURE_BYTES_PER_STREAM.toNat}-byte per-stream maximum"))
    else .ok (some limit)

/-- `supervisor_request`. -/
def Host.supervisorRequest (host : Host) (entry : String) (options : LibdenoOptions)
    (cwd : String) : Except LibdenoError SupervisorRequest := do
  refuseIf options.extensions
    (.configuration "native extension factories are not supported by subprocess execution")
  host.validateChildOptions options cwd options.captureStderr
  let maxCaptureBytes ← supervisorCaptureLimit options.captureStdout options.captureStderr
    options.maxCaptureBytes
  return {
    entry
    cwd
    permissions := options.permissions
    allowAllPermissions := options.allowAllPermissions
    prompt := options.prompt
    args := options.args
    features := options.features
    maxHeapBytes := options.maxHeapBytes
    executionDeadline := options.executionDeadline
    captureStdout := options.captureStdout
    captureStderr := options.captureStderr
    maxCaptureBytes }

/-- `effective_supervisor_deadline`. -/
def Host.effectiveSupervisorDeadline (host : Host) (parentDeadline executionDeadline : Option Nat) :
    Except LibdenoError (Option Nat) := do
  let optionDeadline ← match executionDeadline with
    | none => pure none
    | some duration =>
        if host.lastInstant < host.now + duration then
          .error (.configuration "execution deadline is too large for the host clock")
        else pure (some (host.now + duration))
  return match parentDeadline, optionDeadline with
    | some parent, some option => some (min parent option)
    | some parent, none => some parent
    | none, some option => some option
    | none, none => none

/-! ### The calls -/

/-- `into_supervisor_partial`. -/
def intoSupervisorPartial (capture : SubprocessOutputCapture) : SupervisorPartialOutput where
  stdout := capture.stdout
  stderr := capture.stderr
  truncated := capture.truncated
  incomplete := capture.incomplete
  readerError := capture.readerError

/-- What a run is given, and what the calls it makes return. -/
structure Calls where
  /-- The executor's context, where it has one. -/
  cancellation : Option CancellationContext
  defaultCancelReason : CancelReason
  parentDeadline : Option Nat
  /-- The clock when the deadline is checked. -/
  checked : Nat
  /-- The context when a passed deadline is requested. -/
  expired : CancellationContext
  json : SerdeJson SupervisorRequest
  token : Except String Unit
  listener : Except IoError Unit
  endpoint : Except IoError String
  /-- `SubprocessOutputReaders::take`. -/
  readers : Except IoError Unit
  /-- `drive_supervisor_session`. -/
  session : Except LibdenoError SupervisorSessionOutcome
  /-- The context after the session. -/
  cancelled : CancellationContext
  /-- How often the clock is read before the grace of the child's exit is over. -/
  polls : Nat
  /-- `collect`. -/
  capture : SubprocessOutputCapture

/-! ### Before the child -/

/-- `if capture_requested { Some(output) } else { None }`. -/
def captured (options : LibdenoOptions) (output : SupervisorPartialOutput) :
    Option SupervisorPartialOutput :=
  if options.captureStdout || options.captureStderr then some output else none

/-- The error of a run that has spawned no child. -/
def unspawned (options : LibdenoOptions) (error : LibdenoError) : SupervisedSubprocessError :=
  .withMetadataAndPartial error (captured options .empty) none none

/-- The same, where the infrastructure failed. -/
def unspawnedInfrastructure (options : LibdenoOptions) : SupervisedSubprocessError :=
  .withCategoryAndPartial .infrastructure (captured options .empty) none none

/-- The context of the run at its start. -/
def Calls.started (calls : Calls) : SupervisorCancellation :=
  ⟨calls.cancellation.getD .new, calls.defaultCancelReason⟩

/-- A run that was cancelled before it began. -/
def refuseCancelled (options : LibdenoOptions) (cancellation : SupervisorCancellation) :
    Except SupervisedSubprocessError Unit :=
  match cancellation.requestedReason with
  | some reason => .error (unspawned options (supervisorCancelError reason))
  | none => .ok ()

/-- A run whose deadline passed before it began: the deadline is requested, which another
request may have come before. -/
def refuseLate (options : LibdenoOptions) (calls : Calls) (deadline : Option Nat) :
    Except SupervisedSubprocessError Unit :=
  if deadline.any (· ≤ calls.checked) then
    let cancellation : SupervisorCancellation :=
      ⟨calls.expired.requestWithReason .deadline, calls.defaultCancelReason⟩
    .error (unspawned options (supervisorCancelError cancellation.reason))
  else .ok ()

/-- The checks before the spawn. -/
def prepareSupervised (host : Host) (entry : String) (options : LibdenoOptions) (calls : Calls) :
    Except SupervisedSubprocessError SupervisorRequest := do
  let deadline ← (host.effectiveSupervisorDeadline calls.parentDeadline
    options.executionDeadline).mapError (unspawned options)
  refuseCancelled options calls.started
  refuseLate options calls deadline
  let cwd ← (host.effectiveCwd options).mapError (unspawned options)
  let request ← (host.supervisorRequest entry options cwd).mapError (unspawned options)
  let _ ← (encodePayload calls.json request).mapError fun _ => unspawnedInfrastructure options
  let _ ← calls.token.mapError fun _ => unspawnedInfrastructure options
  let _ ← calls.listener.mapError fun _ => unspawnedInfrastructure options
  let _ ← calls.endpoint.mapError fun _ => unspawnedInfrastructure options
  return request

/-! ### The child -/

/-- `io::Error::other`. -/
def otherError (message : String) : IoError := { kind := .other, message }

/-- `kill_and_wait_supervisor_child`. -/
def killAndWaitSupervisorChild : Sys (Except IoError ExitStatus) := do
  let killed ← kill
  let waited ← wait
  match killed, waited with
  | .ok (), .ok status => return .ok status
  | .error kill, .ok status =>
      return .error (otherError
        s!"supervisor child kill failed after reaping exit status {status.text}: {kill.message}")
  | .ok (), .error wait =>
      return .error (otherError s!"supervisor child was killed but wait failed: {wait.message}")
  | .error kill, .error wait =>
      return .error (otherError
        s!"supervisor child kill failed: {kill.message}; wait failed: {wait.message}")

/-- The status of a child that was reaped. -/
def ExitStatus.reap (status : ExitStatus) (forcedKill : Bool) : SupervisorChildReap :=
  { status := status.code.map Int32.toInt, forcedKill }

/-- The grace of the child's exit is over. -/
def killSupervisorChild : Sys (Except IoError SupervisorChildReap) := do
  match ← killAndWaitSupervisorChild with
  | .ok status => return .ok (status.reap true)
  | .error error => return .error error

/-- `try_wait` has failed. -/
def failInspection (error : IoError) : Sys (Except IoError SupervisorChildReap) := do
  match ← killAndWaitSupervisorChild with
  | .ok status =>
      return .error (otherError (s!"supervisor child inspection failed: {error.message}; " ++
        s!"cleanup reaped exit status {status.text}"))
  | .error cleanup =>
      return .error (otherError (s!"supervisor child inspection failed: {error.message}; " ++
        s!"cleanup failed: {cleanup.message}"))

/-- `reap_supervisor_child`; the clock is before the end of the grace for `polls` readings. -/
def reapSupervisorChild (polls : Nat) : Sys (Except IoError SupervisorChildReap) := do
  match ← tryWait with
  | .ok (some status) => return .ok (status.reap false)
  | .ok none =>
      match polls with
      | polls + 1 => reapSupervisorChild polls
      | 0 => killSupervisorChild
  | .error error => failInspection error

/-! ### The run -/

/-- The run, from its child on. -/
def superviseChild (options : LibdenoOptions) (calls : Calls) :
    Sys (Except SupervisedSubprocessError SupervisorRunResult) := do
  let captureRequested := options.captureStdout || options.captureStderr
  match if captureRequested then calls.readers else .ok () with
  | .error _ =>
      let _ ← killAndWaitSupervisorChild
      return .error (.withCategoryAndPartial .infrastructure (some .failedReader)
        (some .directChild) (some .failed))
  | .ok () =>
      -- the session goes on beside the child
      let _ ← turn
      let cleanup ← reapSupervisorChild calls.polls
      return supervisedRunResult calls.session cleanup ⟨calls.cancelled, calls.defaultCancelReason⟩
        (captured options (intoSupervisorPartial calls.capture))
        (captureRequested && calls.capture.deadlineWon)

/-- `run_supervised_subprocess_with_executable_observed_and_started`. -/
def runSupervised (host : Host) (entry : String) (options : LibdenoOptions) (calls : Calls) :
    Sys (Except SupervisedSubprocessError SupervisorRunResult) := do
  match prepareSupervised host entry options calls with
  | .error error => return .error error
  | .ok _ =>
      match ← spawn with
      | .error _ => return .error (unspawnedInfrastructure options)
      | .ok () => superviseChild options calls

/-- `run_in_supervised_subprocess`, once the host executable is resolved. -/
def supervisedOutput : Except SupervisedSubprocessError SupervisorRunResult →
    Except LibdenoError RunOutput
  | .ok result =>
      if result.transportStatus ≠ .clean ||
          result.partialOutput.any (fun output => output.incomplete || output.readerError) then
        .error (supervisorCategoryError .infrastructure)
      else
        let output := result.partialOutput.getD .empty
        .ok {
          exitCode := result.exitCode
          stdout := output.stdout
          stderr := output.stderr
          captureTruncated := output.truncated }
  | .error error =>
      if error.category = none && error.cleanupStrength = some .directChild &&
          error.transportStatus = some .failed &&
          error.partialOutput.any (fun output => output.incomplete || output.readerError) then
        -- the capture of a reaped child failed: that outranks the cancellation
        .error (supervisorCategoryError .infrastructure)
      else .error error.error

/-! ### What the run leaves behind -/

/-- The child is accounted for, and it was there. -/
def Settles (w : World) : Prop := Accounted w ∧ Spawned w

theorem ReapedWith.settles {status : ExitStatus} {w : World} (h : ReapedWith status w) :
    Settles w := ⟨h.accounted, h.spawned⟩

theorem killAndWaitSupervisorChild_spec :
    Ensures Never Spawned killAndWaitSupervisorChild fun answer w => Settles w ∧
      ∀ status, answer = .ok status → ReapedWith status w := by
  refine kill_spec.bind fun killed => wait_spec.bind fun waited => ?_
  rcases waited with refused | status
  · have hsettles : ∀ w, Spawned w ∧ w.waitFailed = true → Settles w :=
      fun w hw => ⟨.inr (.inr hw.2), hw.1⟩
    rcases killed with error | -
    · exact .pure fun w hw => ⟨hsettles w hw, nofun⟩
    · exact .pure fun w hw => ⟨hsettles w hw, nofun⟩
  · rcases killed with error | -
    · exact .pure fun w hw => ⟨hw.settles, nofun⟩
    · refine .pure fun w hw => ⟨hw.settles, fun status' heq => ?_⟩
      cases heq
      exact hw

/-- The child is settled, and a status that is reported is its own. -/
def Reaps (answer : Except IoError SupervisorChildReap) (w : World) : Prop :=
  Settles w ∧ ∀ reap, answer = .ok reap →
    ∃ status, ReapedWith status w ∧ reap = status.reap reap.forcedKill

theorem ReapedWith.reaps {status : ExitStatus} {w : World} (h : ReapedWith status w)
    (forcedKill : Bool) : Reaps (.ok (status.reap forcedKill)) w := by
  refine ⟨h.settles, fun reap heq => ?_⟩
  cases heq
  exact ⟨status, h, rfl⟩

theorem killSupervisorChild_spec : Ensures Never Spawned killSupervisorChild Reaps := by
  refine killAndWaitSupervisorChild_spec.bind fun cleanup => ?_
  rcases cleanup with failed | status
  · exact .pure fun w hw => ⟨hw.1, nofun⟩
  · exact .pure fun w hw => (hw.2 status rfl).reaps true

theorem failInspection_spec (error : IoError) :
    Ensures Never Spawned (failInspection error) Reaps := by
  refine killAndWaitSupervisorChild_spec.bind fun cleanup => ?_
  rcases cleanup with failed | status
  · exact .pure fun w hw => ⟨hw.1, nofun⟩
  · exact .pure fun w hw => ⟨hw.1, nofun⟩

theorem reapSupervisorChild_spec (polls : Nat) :
    Ensures Never Spawned (reapSupervisorChild polls) Reaps := by
  induction polls with
  | zero =>
      unfold reapSupervisorChild
      refine tryWait_spec.bind fun answer => ?_
      rcases answer with error | (- | status)
      · exact failInspection_spec error
      · exact killSupervisorChild_spec
      · exact .pure fun w hw => ReapedWith.reaps hw false
  | succ polls ih =>
      unfold reapSupervisorChild
      refine tryWait_spec.bind fun answer => ?_
      rcases answer with error | (- | status)
      · exact failInspection_spec error
      · exact ih
      · exact .pure fun w hw => ReapedWith.reaps hw false

/-! ### What the run reports -/

/-- What an answer says of the output. -/
def reportedOutput :
    Except SupervisedSubprocessError SupervisorRunResult → Option SupervisorPartialOutput
  | .ok result => result.partialOutput
  | .error error => error.partialOutput

/-- What an answer says of a child that was there. -/
def ReportsChild : Except SupervisedSubprocessError SupervisorRunResult → Prop
  | .ok result => result.cleanupStrength = .directChild
  | .error error =>
      error.cleanupStrength = some .directChild ∧ error.transportStatus.isSome = true

/-- What an answer says if there was none. -/
def ReportsNoChild : Except SupervisedSubprocessError SupervisorRunResult → Prop
  | .ok _ => False
  | .error error => error.cleanupStrength = none ∧ error.transportStatus = none

theorem categorised_reports (category : Option SupervisorFailureCategory) (error : LibdenoError)
    (output : Option SupervisorPartialOutput) (status : SupervisorTransportStatus) :
    reportedOutput (.error (.categorised category error output status)) = output ∧
      ReportsChild (.error (.categorised category error output status)) := by
  cases category <;> exact ⟨rfl, rfl, rfl⟩

theorem collectionDeadlineError_reports (cancellation : SupervisorCancellation)
    (output : Option SupervisorPartialOutput) (status : SupervisorTransportStatus) :
    reportedOutput (.error (collectionDeadlineError cancellation output status)) = output ∧
      ReportsChild (.error (collectionDeadlineError cancellation output status)) := by
  unfold collectionDeadlineError
  split
  · exact categorised_reports ..
  · exact categorised_reports ..
  · exact ⟨rfl, rfl, rfl⟩
  · exact ⟨rfl, rfl, rfl⟩

/-- The output is reported as it was collected, and the child as one that was there. -/
theorem supervisedRunResult_reports (session : Except LibdenoError SupervisorSessionOutcome)
    (cleanup : Except IoError SupervisorChildReap) (cancellation : SupervisorCancellation)
    (output : Option SupervisorPartialOutput) (deadlineWon : Bool) :
    reportedOutput (supervisedRunResult session cleanup cancellation output deadlineWon) =
        output ∧
      ReportsChild (supervisedRunResult session cleanup cancellation output deadlineWon) := by
  unfold supervisedRunResult
  split
  · exact categorised_reports ..
  · split
    · exact ⟨rfl, rfl, rfl⟩
    · dsimp only
      split
      · split
        · exact collectionDeadlineError_reports ..
        · exact ⟨rfl, rfl⟩
      · exact categorised_reports ..

/-- A run that succeeds had a session with a TERMINAL, a child that was reaped, and the exit code
the TERMINAL is mapped to. -/
theorem supervisedRunResult_ok {session : Except LibdenoError SupervisorSessionOutcome}
    {cleanup : Except IoError SupervisorChildReap} {cancellation : SupervisorCancellation}
    {output : Option SupervisorPartialOutput} {deadlineWon : Bool} {result : SupervisorRunResult}
    (h : supervisedRunResult session cleanup cancellation output deadlineWon = .ok result) :
    deadlineWon = false ∧ ∃ outcome reap mapped, session = .ok outcome ∧ cleanup = .ok reap ∧
      mapSupervisorTerminalWithCancellation outcome.terminal reap.status reap.forcedKill
        outcome.cancellationBeforeTerminal = .ok mapped ∧ result.exitCode = mapped.exitCode := by
  unfold supervisedRunResult at h
  split at h
  · cases h
  · next outcome =>
    split at h
    · cases h
    · next reap =>
      dsimp only at h
      split at h
      · next mapped hmapped =>
        split at h
        · cases h
        · next hwon =>
          cases h
          exact ⟨by simpa using hwon, outcome, reap, mapped, rfl, rfl, hmapped, rfl⟩
      · cases h

/-! ### The whole run -/

/-- The output is reported exactly if it was asked for. -/
def ReportsOutput (options : LibdenoOptions)
    (answer : Except SupervisedSubprocessError SupervisorRunResult) : Prop :=
  (reportedOutput answer).isSome = (options.captureStdout || options.captureStderr)

/-- A run that succeeds reaped its child, and the exit code is what the TERMINAL of its session
and the status of the child are mapped to. -/
def Succeeds (calls : Calls) (answer : Except SupervisedSubprocessError SupervisorRunResult)
    (w : World) : Prop :=
  ∀ result, answer = .ok result → ∃ outcome status forcedKill output,
    calls.session = .ok outcome ∧ ReapedWith status w ∧
    mapSupervisorTerminalWithCancellation outcome.terminal (status.code.map Int32.toInt)
      forcedKill outcome.cancellationBeforeTerminal = .ok output ∧
    result.exitCode = output.exitCode

theorem captured_isSome (options : LibdenoOptions) (output : SupervisorPartialOutput) :
    (captured options output).isSome = (options.captureStdout || options.captureStderr) := by
  unfold captured
  split <;> simp_all

theorem unspawned_reports (options : LibdenoOptions) (error : LibdenoError) :
    ReportsOutput options (.error (unspawned options error)) ∧
      ReportsNoChild (.error (unspawned options error)) :=
  ⟨captured_isSome options .empty, rfl, rfl⟩

theorem unspawnedInfrastructure_reports (options : LibdenoOptions) :
    ReportsOutput options (.error (unspawnedInfrastructure options)) ∧
      ReportsNoChild (.error (unspawnedInfrastructure options)) :=
  ⟨captured_isSome options .empty, rfl, rfl⟩

/-- An error with nothing to say of a child. -/
def Unspawned (options : LibdenoOptions) (error : SupervisedSubprocessError) : Prop :=
  ReportsOutput options (.error error) ∧ ReportsNoChild (.error error)

theorem bind_unspawned {α β : Type} {options : LibdenoOptions}
    {first : Except SupervisedSubprocessError α} {rest : α → Except SupervisedSubprocessError β}
    (hfirst : ∀ e, first = .error e → Unspawned options e)
    (hrest : ∀ a e, rest a = .error e → Unspawned options e) (e : SupervisedSubprocessError)
    (h : first >>= rest = .error e) : Unspawned options e := by
  cases first with
  | error first =>
      cases h
      exact hfirst _ rfl
  | ok a => exact hrest a e h

theorem mapError_unspawned {ε α : Type} {options : LibdenoOptions} {call : Except ε α}
    {error : ε → SupervisedSubprocessError} (h : ∀ e, Unspawned options (error e))
    (e : SupervisedSubprocessError) (herror : call.mapError error = .error e) :
    Unspawned options e := by
  cases call with
  | error refused =>
      cases herror
      exact h refused
  | ok a => cases herror

theorem refuseCancelled_unspawned (options : LibdenoOptions)
    (cancellation : SupervisorCancellation) (e : SupervisedSubprocessError)
    (h : refuseCancelled options cancellation = .error e) : Unspawned options e := by
  unfold refuseCancelled at h
  split at h
  · cases h
    exact unspawned_reports options _
  · cases h

theorem refuseLate_unspawned (options : LibdenoOptions) (calls : Calls) (deadline : Option Nat)
    (e : SupervisedSubprocessError) (h : refuseLate options calls deadline = .error e) :
    Unspawned options e := by
  unfold refuseLate at h
  split at h
  · cases h
    exact unspawned_reports options _
  · cases h

/-- Every error before the spawn says that there was no child. -/
theorem prepareSupervised_unspawned (host : Host) (entry : String) (options : LibdenoOptions)
    (calls : Calls) : ∀ e, prepareSupervised host entry options calls = .error e →
      Unspawned options e := by
  have hplain := unspawned_reports options
  have hinfrastructure := unspawnedInfrastructure_reports options
  refine bind_unspawned (mapError_unspawned hplain) fun deadline => ?_
  refine bind_unspawned (refuseCancelled_unspawned options calls.started) fun _ => ?_
  refine bind_unspawned (refuseLate_unspawned options calls deadline) fun _ => ?_
  refine bind_unspawned (mapError_unspawned hplain) fun cwd => ?_
  refine bind_unspawned (mapError_unspawned hplain) fun request => ?_
  refine bind_unspawned (mapError_unspawned fun _ => hinfrastructure) fun _ => ?_
  refine bind_unspawned (mapError_unspawned fun _ => hinfrastructure) fun _ => ?_
  refine bind_unspawned (mapError_unspawned fun _ => hinfrastructure) fun _ => ?_
  exact bind_unspawned (mapError_unspawned fun _ => hinfrastructure) fun _ error h => (by cases h)

/-- A cancellation comes before everything but the clock. -/
theorem prepareSupervised_cancelled {host : Host} {entry : String} {options : LibdenoOptions}
    {calls : Calls} {deadline : Option Nat} {reason : CancelReason}
    (hdeadline : host.effectiveSupervisorDeadline calls.parentDeadline
      options.executionDeadline = .ok deadline)
    (hreason : calls.started.requestedReason = some reason) :
    prepareSupervised host entry options calls =
      .error (unspawned options (supervisorCancelError reason)) := by
  unfold prepareSupervised refuseCancelled
  rw [hdeadline, hreason]
  rfl

/-- A deadline that has passed comes next. -/
theorem prepareSupervised_late {host : Host} {entry : String} {options : LibdenoOptions}
    {calls : Calls} {deadline : Nat}
    (hdeadline : host.effectiveSupervisorDeadline calls.parentDeadline
      options.executionDeadline = .ok (some deadline))
    (hreason : calls.started.requestedReason = none) (hlate : deadline ≤ calls.checked) :
    ∃ reason, prepareSupervised host entry options calls =
      .error (unspawned options (supervisorCancelError reason)) := by
  have hpassed : (some deadline).any (· ≤ calls.checked) = true := by simpa using hlate
  have hrefused : ∃ reason, refuseLate options calls (some deadline) =
      .error (unspawned options (supervisorCancelError reason)) := by
    rw [refuseLate, if_pos hpassed]
    exact ⟨_, rfl⟩
  obtain ⟨reason, hrefused⟩ := hrefused
  refine ⟨reason, ?_⟩
  unfold prepareSupervised refuseCancelled
  rw [hdeadline, hreason]
  change (refuseLate options calls (some deadline) >>= _) = _
  rw [hrefused]
  rfl

theorem superviseChild_spec (options : LibdenoOptions) (calls : Calls) :
    Ensures Never Spawned (superviseChild options calls) fun answer w => Settles w ∧
      ReportsOutput options answer ∧ ReportsChild answer ∧ Succeeds calls answer w := by
  unfold superviseChild
  have hsession : Ensures Never Spawned (do
      let _ ← turn
      let cleanup ← reapSupervisorChild calls.polls
      return supervisedRunResult calls.session cleanup
        ⟨calls.cancelled, calls.defaultCancelReason⟩
        (captured options (intoSupervisorPartial calls.capture))
        ((options.captureStdout || options.captureStderr) && calls.capture.deadlineWon) :
        Sys (Except SupervisedSubprocessError SupervisorRunResult)) fun answer w =>
      Settles w ∧ ReportsOutput options answer ∧ ReportsChild answer ∧ Succeeds calls answer w := by
    refine spawned_stable.turn.bind fun _ => (reapSupervisorChild_spec calls.polls).bind
      fun cleanup => .pure fun w hw => ?_
    obtain ⟨houtput, hchild⟩ := supervisedRunResult_reports calls.session cleanup
      ⟨calls.cancelled, calls.defaultCancelReason⟩
      (captured options (intoSupervisorPartial calls.capture))
      ((options.captureStdout || options.captureStderr) && calls.capture.deadlineWon)
    refine ⟨hw.1, ?_, hchild, fun result hresult => ?_⟩
    · rw [ReportsOutput, houtput]
      exact captured_isSome options _
    · obtain ⟨-, outcome, reap, output, hok, hreap, hmapped, hcode⟩ :=
        supervisedRunResult_ok hresult
      obtain ⟨status, hreaped, hstatus⟩ := hw.2 reap hreap
      rw [hstatus] at hmapped
      exact ⟨outcome, status, reap.forcedKill, output, hok, hreaped, hmapped, hcode⟩
  dsimp only
  split
  · next error hreaders =>
    refine killAndWaitSupervisorChild_spec.bind fun _ => .pure fun w hw =>
      ⟨hw.1, ?_, ⟨rfl, rfl⟩, nofun⟩
    -- readers are taken only where output is captured
    have hcaptured : (options.captureStdout || options.captureStderr) = true := by
      by_contra hnot
      rw [if_neg hnot] at hreaders
      cases hreaders
    rw [ReportsOutput, hcaptured]
    rfl
  · exact hsession

/-- What a supervised run owes its caller. -/
structure SupervisedSettled (host : Host) (options : LibdenoOptions) (calls : Calls)
    (before : World) (answer : Except SupervisedSubprocessError SupervisorRunResult)
    (after : World) : Prop where
  accounted : Accounted after
  output : ReportsOutput options answer
  child : (after.child = none ∧ ReportsNoChild answer) ∨ (Spawned after ∧ ReportsChild answer)
  succeeds : Succeeds calls answer after
  cancelled : ∀ deadline reason, host.effectiveSupervisorDeadline calls.parentDeadline
      options.executionDeadline = .ok deadline → calls.started.requestedReason = some reason →
    answer = .error (unspawned options (supervisorCancelError reason)) ∧ after = before
  late : ∀ deadline, host.effectiveSupervisorDeadline calls.parentDeadline
      options.executionDeadline = .ok (some deadline) → calls.started.requestedReason = none →
    deadline ≤ calls.checked →
    ∃ reason, answer = .error (unspawned options (supervisorCancelError reason)) ∧ after = before
  /-- What the public wrapper passes on was sent cleanly and captured whole. -/
  trusted : ∀ output, supervisedOutput answer = .ok output → ∃ result, answer = .ok result ∧
    result.transportStatus = .clean ∧ output.exitCode = result.exitCode ∧
    ∀ captured, result.partialOutput = some captured →
      captured.incomplete = false ∧ captured.readerError = false ∧
        output.stdout = captured.stdout ∧ output.stderr = captured.stderr

theorem supervisedOutput_ok {answer : Except SupervisedSubprocessError SupervisorRunResult}
    {output : RunOutput} (h : supervisedOutput answer = .ok output) :
    ∃ result, answer = .ok result ∧ result.transportStatus = .clean ∧
      output.exitCode = result.exitCode ∧
      ∀ captured, result.partialOutput = some captured →
        captured.incomplete = false ∧ captured.readerError = false ∧
          output.stdout = captured.stdout ∧ output.stderr = captured.stderr := by
  unfold supervisedOutput at h
  split at h
  · next result =>
    split at h
    · cases h
    · next hclean =>
      cases h
      simp only [Bool.or_eq_true, decide_eq_true_eq, not_or, not_not, Bool.not_eq_true] at hclean
      refine ⟨result, rfl, hclean.1, rfl, fun captured hcaptured => ?_⟩
      have hwhole := hclean.2
      rw [hcaptured] at hwhole
      simp only [Option.any_some, Bool.or_eq_false_iff] at hwhole
      refine ⟨hwhole.1, hwhole.2, ?_, ?_⟩
      · rw [hcaptured]
        rfl
      · rw [hcaptured]
        rfl
  · split at h
    · cases h
    · cases h

theorem runSupervised_spec (host : Host) (entry : String) (options : LibdenoOptions)
    (calls : Calls) :
    Ensures Never (fun w => w.child = none) (runSupervised host entry options calls)
      fun answer w => Accounted w ∧ ReportsOutput options answer ∧
        ((w.child = none ∧ ReportsNoChild answer) ∨ (Spawned w ∧ ReportsChild answer)) ∧
        Succeeds calls answer w := by
  unfold runSupervised
  cases hprepare : prepareSupervised host entry options calls with
  | error error =>
      obtain ⟨houtput, hnone⟩ := prepareSupervised_unspawned host entry options calls error hprepare
      exact .pure fun w hw => ⟨.inl hw, houtput, .inl ⟨hw, hnone⟩, nofun⟩
  | ok request =>
      refine spawn_spec.bind fun answer => ?_
      rcases answer with error | -
      · obtain ⟨houtput, hnone⟩ := unspawnedInfrastructure_reports options
        exact .pure fun w hw => ⟨.inl hw, houtput, .inl ⟨hw, hnone⟩, nofun⟩
      · exact (superviseChild_spec options calls).weaken fun answer w hw =>
          ⟨hw.1.1, hw.2.1, .inr ⟨hw.1.2, hw.2.2.1⟩, hw.2.2.2⟩

/-- **Whatever fails, and whenever the child ends,** a supervised run leaves no child behind that
it could wait for, and its report agrees with what happened. -/
theorem supervised_run_settles (host : Host) (entry : String) (options : LibdenoOptions)
    (calls : Calls) (w : World) (hchild : w.child = none) :
    ∃ answer after, runSupervised host entry options calls w = .ok (answer, after) ∧
      SupervisedSettled host options calls w answer after := by
  have hrun := runSupervised_spec host entry options calls w hchild
  have hrefused : ∀ e, prepareSupervised host entry options calls = .error e →
      runSupervised host entry options calls w = .ok (.error e, w) := by
    intro e he
    unfold runSupervised
    rw [he]
    rfl
  rcases hout : runSupervised host entry options calls w with never | ⟨answer, after⟩
  · rw [hout] at hrun
    exact hrun.elim
  · rw [hout] at hrun
    obtain ⟨haccounted, houtput, hreports, hsucceeds⟩ := hrun
    refine ⟨answer, after, rfl, haccounted, houtput, hreports, hsucceeds,
      fun deadline reason hdeadline hreason => ?_, fun deadline hdeadline hnone hlate => ?_,
      fun output h => supervisedOutput_ok h⟩
    · rw [hrefused _ (prepareSupervised_cancelled hdeadline hreason)] at hout
      cases hout
      exact ⟨rfl, rfl⟩
    · obtain ⟨reason, hprepare⟩ := prepareSupervised_late hdeadline hnone hlate
      rw [hrefused _ hprepare] at hout
      cases hout
      exact ⟨reason, rfl, rfl⟩

/-- The calls of a run whose child hangs: its session times out, and its grace passes. -/
def hangingCalls : Calls where
  cancellation := none
  defaultCancelReason := .user
  parentDeadline := none
  checked := 0
  expired := .new
  json := {
    toVec := fun _ => .ok []
    fromSlice := fun _ => .error "EOF while parsing a value" }
  token := .ok ()
  listener := .ok ()
  endpoint := .ok "127.0.0.1:4000"
  readers := .ok ()
  session := .error (.timeout "supervisor handshake timed out")
  cancelled := .new
  polls := 2
  capture := {
    stdout := []
    stderr := []
    truncated := false
    incomplete := false
    readerError := false
    deadlineWon := false
    error := none }

/-- A process without a child. -/
def idle : World where
  child := none
  writer := .none
  active := 0
  waitFailed := false
  script := []

theorem supervised_run_settles_sample :
    ∃ answer after,
      runSupervised sampleHost "main.ts" sampleOptions hangingCalls idle = .ok (answer, after) ∧
      SupervisedSettled sampleHost sampleOptions hangingCalls idle answer after :=
  supervised_run_settles sampleHost "main.ts" sampleOptions hangingCalls idle rfl

end Libdeno.Subprocess
