import Libdeno.Supervisor.Terminal

/-!
# Libdeno.Supervisor.TerminalMapping

From an execution's error to the TERMINAL a child reports, and from the TERMINAL a
parent received, together with the child's exit status and the cancellation
recorded before it, to the result of the run.
-/

namespace Libdeno.Supervisor

/-- `LibdenoError`. A runtime or core error keeps its text and whether a permission
denial is in its chain, which is all `is_permission_error` looks for. -/
inductive LibdenoError
  | entry (message : String)
  | permission (message : String)
  | configuration (message : String)
  | runtime (message : String) (permissionSource : Bool)
  | core (message : String) (permissionSource : Bool)
  | io (error : IoError)
  | timeout (message : String)
  deriving Repr, DecidableEq

/-- `LibdenoError::is_permission_error`. -/
def LibdenoError.isPermissionError : LibdenoError → Bool
  | .runtime _ permissionSource | .core _ permissionSource => permissionSource
  | _ => false

/-- `RunOutput`. -/
structure RunOutput where
  exitCode : Int32
  stdout : List UInt8
  stderr : List UInt8
  captureTruncated : Bool
  deriving Repr, DecidableEq

/-- `supervisor_error`. -/
def supervisorError (message : String) : LibdenoError := .runtime message false

/-- `supervisor_cancel_error`. -/
def supervisorCancelError : CancelReason → LibdenoError
  | .deadline => .timeout "supervisor execution deadline exceeded"
  | .user | .shutdown => .runtime "supervisor execution cancelled" false

/-! ### The child's side -/

/-- `supervisor_child_failure_category`. -/
def supervisorChildFailureCategory (error : LibdenoError) : SupervisorFailureCategory :=
  if (error matches .permission _) || error.isPermissionError then .permission
  else
    match error with
    | .configuration _ | .io _ => .infrastructure
    | _ => .runtime

/-- The TERMINAL of a child whose user code has ended, from its cancellation cell
(`reason` falls back to `User`) and the result of the run. The child captures
nothing, so the terminal carries no output. -/
def childTerminal (reason : CancelReason) (requested : Bool)
    (result : Except LibdenoError RunOutput) : SupervisorTerminal :=
  let terminal (outcome : SupervisorOutcome) (exitCode : Option Int32)
      (category : Option SupervisorFailureCategory) : SupervisorTerminal :=
    { outcome, exitCode, category, stdout := [], stderr := [], truncated := false }
  if reason = .deadline then terminal .deadline none none
  else if requested then terminal .cancelled none none
  else
    match result with
    | .ok output => terminal .completed (some output.exitCode) none
    | .error (.timeout _) => terminal .deadline none none
    | .error error => terminal .failed none (some (supervisorChildFailureCategory error))

/-- The TERMINAL of a child that was cancelled instead of started. -/
def preStartTerminal (reason : CancelReason) : SupervisorTerminal where
  outcome := preStartOutcome reason
  exitCode := none
  category := none
  stdout := []
  stderr := []
  truncated := false

/-- The exit code `supervisor_child_exit` returns for a TERMINAL it has written. -/
def terminalExitCode (terminal : SupervisorTerminal) : Int32 :=
  match terminal.outcome with
  | .completed => terminal.exitCode.getD 1
  | .failed | .cancelled | .deadline => 1

theorem supervisorChildFailureCategory_mem (error : LibdenoError) :
    supervisorChildFailureCategory error ∈
      [SupervisorFailureCategory.permission, .infrastructure, .runtime] := by
  unfold supervisorChildFailureCategory
  by_cases hpermission : error.isPermissionError = true
  · simp [hpermission]
  · cases error <;> simp [hpermission]

/-- A child only ever reports terminals of valid shape. -/
theorem childTerminal_shape (reason : CancelReason) (requested : Bool)
    (result : Except LibdenoError RunOutput) :
    validateSupervisorTerminalShape (childTerminal reason requested result) = .ok () := by
  rw [validateSupervisorTerminalShape_ok]
  unfold childTerminal
  split
  · exact ⟨rfl, rfl, rfl, rfl⟩
  split
  · exact ⟨rfl, rfl, rfl, rfl⟩
  split
  · exact ⟨rfl, rfl, rfl, rfl⟩
  · exact ⟨rfl, rfl, rfl, rfl⟩
  · next error _ =>
    refine ⟨?_, rfl, rfl, rfl⟩
    have hmem := supervisorChildFailureCategory_mem error
    simp only [List.mem_cons, List.not_mem_nil, or_false] at hmem
    rcases hmem with h | h | h <;> simp [SupervisorTerminal.fieldsValid, h]

theorem preStartTerminal_shape (reason : CancelReason) :
    validateSupervisorTerminalShape (preStartTerminal reason) = .ok () := by
  cases reason <;> rfl

/-! ### The parent's side -/

/-- The status code the parent sees of a child that exits with `code`, on Unix. -/
def exitStatus (code : Int32) : Option Int := some (code.toInt % 256)

/-- `supervisor_exit_code_for_status`, on Unix: `rem_euclid(256)`. -/
def supervisorExitCodeForStatus (exitCode : Int32) : Int := exitCode.toInt % 256

/-- The status code the parent expects with a TERMINAL of valid shape. -/
def expectedStatus (terminal : SupervisorTerminal) : Int :=
  match terminal.outcome with
  | .completed => supervisorExitCodeForStatus (terminal.exitCode.getD 0)
  | .cancelled | .deadline | .failed => 1

/-- `validate_supervisor_terminal_status`; `status` is `ExitStatus::code`. -/
def validateSupervisorTerminalStatus (terminal : SupervisorTerminal) (status : Option Int)
    (forcedKill : Bool) : Except LibdenoError Unit :=
  if forcedKill then .ok ()
  else if status ≠ some (expectedStatus terminal) then
    let outcome :=
      match terminal.outcome with
      | .completed => "completed"
      | .cancelled => "cancelled"
      | .deadline => "deadline"
      | .failed => "failed"
    .error (supervisorError
      (outcome ++ " supervisor TERMINAL disagrees with direct-child exit status"))
  else .ok ()

/-- `map_supervisor_terminal_with_cancellation`. -/
def mapSupervisorTerminalWithCancellation (terminal : SupervisorTerminal)
    (status : Option Int) (forcedKill : Bool)
    (cancellationBeforeTerminal : Option CancelReason) : Except LibdenoError RunOutput :=
  match validateSupervisorTerminalShape terminal with
  | .error error => .error (.io error)
  | .ok () =>
      match cancellationBeforeTerminal with
      | some reason =>
          match validateSupervisorTerminalStatus terminal status forcedKill with
          | .error error => .error error
          | .ok () => .error (supervisorCancelError reason)
      | none =>
          match terminal.outcome with
          | .completed =>
              -- The shape check guarantees an exit code.
              let exitCode := terminal.exitCode.getD 0
              if !forcedKill && status ≠ some (supervisorExitCodeForStatus exitCode) then
                .error (supervisorError
                  "supervisor TERMINAL disagrees with direct-child exit status")
              else
                .ok { exitCode, stdout := terminal.stdout, stderr := terminal.stderr,
                      captureTruncated := terminal.truncated }
          | .cancelled =>
              if !forcedKill && status ≠ some 1 then
                .error (supervisorError
                  "cancelled supervisor TERMINAL disagrees with direct-child exit status")
              else
                .error (supervisorCancelError .user)
          | .deadline =>
              if !forcedKill && status ≠ some 1 then
                .error (supervisorError
                  "deadline supervisor TERMINAL disagrees with direct-child exit status")
              else
                .error (supervisorCancelError .deadline)
          | .failed =>
              if !forcedKill && status ≠ some 1 then
                .error (supervisorError
                  "failed supervisor TERMINAL disagrees with direct-child exit status")
              else
                .error (supervisorError "supervised child execution failed")

/-- The result a TERMINAL stands for by itself, when no cancellation was recorded. -/
def terminalResult (terminal : SupervisorTerminal) : Except LibdenoError RunOutput :=
  match terminal.outcome with
  | .completed =>
      .ok { exitCode := terminal.exitCode.getD 0, stdout := terminal.stdout,
            stderr := terminal.stderr, captureTruncated := terminal.truncated }
  | .cancelled => .error (supervisorCancelError .user)
  | .deadline => .error (supervisorCancelError .deadline)
  | .failed => .error (supervisorError "supervised child execution failed")

/-- What a TERMINAL and the cancellation recorded before it come to. -/
def reconciled (terminal : SupervisorTerminal) (recorded : Option CancelReason) :
    Except LibdenoError RunOutput :=
  match recorded with
  | some reason => .error (supervisorCancelError reason)
  | none => terminalResult terminal

/-- A child that has written its TERMINAL exits with the status the parent
expects. -/
theorem exitStatus_terminalExitCode {terminal : SupervisorTerminal}
    (shape : validateSupervisorTerminalShape terminal = .ok ()) :
    exitStatus (terminalExitCode terminal) = some (expectedStatus terminal) := by
  unfold terminalExitCode expectedStatus
  cases houtcome : terminal.outcome with
  | completed =>
      obtain ⟨code, hcode⟩ := exitCode_of_completed shape houtcome
      simp [hcode, exitStatus, supervisorExitCodeForStatus]
  | failed => rfl
  | cancelled => rfl
  | deadline => rfl

/-- With the expected status, or none to compare with, the mapping reconciles the
TERMINAL with the recorded cancellation and adds nothing. -/
theorem mapSupervisorTerminal_eq {terminal : SupervisorTerminal} {status : Option Int}
    {forcedKill : Bool} (shape : validateSupervisorTerminalShape terminal = .ok ())
    (agrees : forcedKill = true ∨ status = some (expectedStatus terminal))
    (recorded : Option CancelReason) :
    mapSupervisorTerminalWithCancellation terminal status forcedKill recorded =
      reconciled terminal recorded := by
  have hstatus : validateSupervisorTerminalStatus terminal status forcedKill = .ok () := by
    rw [validateSupervisorTerminalStatus]
    rcases agrees with h | h
    · rw [if_pos h]
    · split
      · rfl
      · rw [if_neg (not_not.mpr h)]
  unfold mapSupervisorTerminalWithCancellation
  rw [shape]
  dsimp only
  cases recorded with
  | some reason => rw [hstatus, reconciled]
  | none =>
      have hpass : ∀ expected, expectedStatus terminal = expected →
          ¬ ((!forcedKill && status ≠ some expected) = true) := by
        intro expected hexpected
        rcases agrees with h | h
        · simp [h]
        · simp [h, hexpected]
      rw [reconciled, terminalResult]
      cases houtcome : terminal.outcome with
      | completed =>
          dsimp only
          rw [if_neg (hpass _ (by rw [expectedStatus, houtcome]))]
      | cancelled =>
          dsimp only
          rw [if_neg (hpass _ (by rw [expectedStatus, houtcome]))]
      | deadline =>
          dsimp only
          rw [if_neg (hpass _ (by rw [expectedStatus, houtcome]))]
      | failed =>
          dsimp only
          rw [if_neg (hpass _ (by rw [expectedStatus, houtcome]))]

end Libdeno.Supervisor
