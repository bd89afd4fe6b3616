import Libdeno.Supervisor.TerminalMapping

/-!
# Libdeno.Executor.Result

What an execution ends with: `ExecutionResult` and `ExecutionFailure` with the report
both carry. Durations (the elapsed time and the phase timing) are left out: no
decision of the scheduler reads them.
-/

namespace Libdeno.Executor

open Supervisor

/-- `ExecutionBackend`. -/
inductive ExecutionBackend
  | inProcess
  | subprocess
  | processPool
  deriving Repr, DecidableEq

/-- `ExecutionCleanupStrength`. -/
inductive ExecutionCleanupStrength
  | directChild
  | processGroup
  | windowsJob
  deriving Repr, DecidableEq

/-- `ExecutionTransportStatus`. -/
inductive ExecutionTransportStatus
  | clean
  | failed
  deriving Repr, DecidableEq

/-- `CapabilityOutcome`. -/
inductive CapabilityOutcome
  | notRequested
  | used
  | failed
  deriving Repr, DecidableEq

/-- `ExecutionError`. -/
inductive ExecutionError
  | libdeno (error : LibdenoError)
  | unsupported (capability : String)
  | internal (message : String)
  | cancelled
  | supervisor (category : SupervisorFailureCategory)
  deriving Repr, DecidableEq

/-- `ExecutionOutput`. -/
structure ExecutionOutput where
  stdout : List UInt8
  stderr : List UInt8
  truncated : Bool
  incomplete : Bool
  readerError : Bool
  deriving Repr, DecidableEq

/-- `ExecutionReport`. -/
structure ExecutionReport where
  requestedBackend : ExecutionBackend
  dispatchedBackend : Option ExecutionBackend
  backendOutcome : CapabilityOutcome
  cleanupStrength : Option ExecutionCleanupStrength
  transportStatus : Option ExecutionTransportStatus
  deriving Repr, DecidableEq

/-- `ExecutionResult`. -/
structure ExecutionResult where
  exitCode : Int32
  output : ExecutionOutput
  report : ExecutionReport
  deriving Repr, DecidableEq

/-- `ExecutionFailure`. -/
structure ExecutionFailure where
  error : ExecutionError
  report : ExecutionReport
  partialOutput : Option ExecutionOutput
  deriving Repr, DecidableEq

/-- What a backend returns and a `ResultCell` holds. -/
abbrev Outcome := Except ExecutionFailure ExecutionResult

/-- The report inside an outcome. -/
def Outcome.report : Outcome → ExecutionReport
  | .ok result => result.report
  | .error failure => failure.report

/-- `is_ok`. -/
def Outcome.isOk : Outcome → Bool
  | .ok _ => true
  | .error _ => false

/-- `backend_result_partial_output`. -/
def backendResultPartialOutput (result : Outcome) (dispatched : ExecutionBackend) :
    Option ExecutionOutput :=
  match result with
  -- The subprocess capture is only needed when cancellation replaces the result.
  | .ok result => if dispatched = .subprocess then some result.output else none
  | .error failure => failure.partialOutput

/-- The supervisor failure that `resolve_backend_result` keeps over a recorded
cancellation, with its category. -/
def supervisorFailure : Outcome → Option (ExecutionFailure × SupervisorFailureCategory)
  | .error failure =>
      match failure.error with
      | .supervisor .timeout => some (failure, .timeout)
      | .supervisor .infrastructure => some (failure, .infrastructure)
      | _ => none
  | .ok _ => none

/-- The failure kept is the backend's own. -/
theorem supervisorFailure_eq_some {result : Outcome} {failure : ExecutionFailure}
    {category : SupervisorFailureCategory}
    (h : supervisorFailure result = some (failure, category)) :
    result = .error failure ∧ failure.error = .supervisor category ∧
      (category = .timeout ∨ category = .infrastructure) := by
  unfold supervisorFailure at h
  split at h
  · next failure' =>
    split at h
    · next herror =>
      obtain ⟨rfl, rfl⟩ := by simpa using h
      exact ⟨rfl, herror, .inl rfl⟩
    · next herror =>
      obtain ⟨rfl, rfl⟩ := by simpa using h
      exact ⟨rfl, herror, .inr rfl⟩
    · cases h
  · cases h

end Libdeno.Executor
