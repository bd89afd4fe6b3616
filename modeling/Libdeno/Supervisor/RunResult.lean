import Libdeno.Supervisor.TerminalMapping

/-!
# Libdeno.Supervisor.RunResult

What a supervised run comes to, from the end of its session on: the session's outcome or
error, the reaped child, what was captured and whether the deadline won while it was
collected. The order in which these are looked at decides both the error and the failure
category that is reported with it.
-/

namespace Libdeno.Supervisor

/-! ### What a run ends with -/

/-- `SupervisorTransportStatus`. -/
inductive SupervisorTransportStatus
  | clean
  | failed
  deriving Repr, DecidableEq

/-- `CleanupStrength`. -/
inductive CleanupStrength
  | directChild
  | processGroup
  | windowsJob
  deriving Repr, DecidableEq

/-- `SupervisorPartialOutput`. -/
structure SupervisorPartialOutput where
  stdout : List UInt8
  stderr : List UInt8
  truncated : Bool
  incomplete : Bool
  readerError : Bool
  deriving Repr, DecidableEq

/-- `SupervisorRunResult`. -/
structure SupervisorRunResult where
  exitCode : Int32
  partialOutput : Option SupervisorPartialOutput
  cleanupStrength : CleanupStrength
  transportStatus : SupervisorTransportStatus
  deriving Repr, DecidableEq

/-- `SupervisedSubprocessError`. -/
structure SupervisedSubprocessError where
  error : LibdenoError
  category : Option SupervisorFailureCategory
  partialOutput : Option SupervisorPartialOutput
  cleanupStrength : Option CleanupStrength
  transportStatus : Option SupervisorTransportStatus
  deriving Repr, DecidableEq

/-- `SupervisorSessionOutcome`. -/
structure SupervisorSessionOutcome where
  terminal : SupervisorTerminal
  cancellationBeforeTerminal : Option CancelReason
  transportStatus : SupervisorTransportStatus
  deriving Repr, DecidableEq

/-- `SupervisorChildReap`; `status` is `ExitStatus::code`. -/
structure SupervisorChildReap where
  status : Option Int
  forcedKill : Bool
  deriving Repr, DecidableEq

/-- `supervisor_category_error`. -/
def supervisorCategoryError (category : SupervisorFailureCategory) : LibdenoError :=
  .runtime category.summary false

/-- `with_metadata_and_partial`. -/
def SupervisedSubprocessError.withMetadataAndPartial (error : LibdenoError)
    (partialOutput : Option SupervisorPartialOutput) (cleanupStrength : Option CleanupStrength)
    (transportStatus : Option SupervisorTransportStatus) : SupervisedSubprocessError :=
  { error, category := none, partialOutput, cleanupStrength, transportStatus }

/-- `with_category_and_partial`. -/
def SupervisedSubprocessError.withCategoryAndPartial (category : SupervisorFailureCategory)
    (partialOutput : Option SupervisorPartialOutput) (cleanupStrength : Option CleanupStrength)
    (transportStatus : Option SupervisorTransportStatus) : SupervisedSubprocessError where
  error :=
    if category = .timeout then .timeout category.summary else supervisorCategoryError category
  category := some category
  partialOutput := partialOutput
  cleanupStrength := cleanupStrength
  transportStatus := transportStatus

/-- The error of a run that reports `category`, or `error` itself where it reports none. -/
def SupervisedSubprocessError.categorised (category : Option SupervisorFailureCategory)
    (error : LibdenoError) (partialOutput : Option SupervisorPartialOutput)
    (transportStatus : SupervisorTransportStatus) : SupervisedSubprocessError :=
  match category with
  | some category =>
      .withCategoryAndPartial category partialOutput (some .directChild) (some transportStatus)
  | none => .withMetadataAndPartial error partialOutput (some .directChild) (some transportStatus)

@[simp] theorem categorised_category (category : Option SupervisorFailureCategory)
    (error : LibdenoError) (partialOutput : Option SupervisorPartialOutput)
    (transportStatus : SupervisorTransportStatus) :
    (SupervisedSubprocessError.categorised category error partialOutput
      transportStatus).category = category := by
  cases category <;> rfl

/-! ### The failed session -/

/-- `supervisor_session_error_is_timeout`. -/
def supervisorSessionErrorIsTimeout : LibdenoError → Bool
  | .timeout _ => true
  | .io error => error.kind = .timedOut
  | _ => false

/-- `supervisor_session_error_is_natural_exit`. -/
def supervisorSessionErrorIsNaturalExit : LibdenoError → Bool
  | .io error =>
      error.kind = .unexpectedEof || error.kind = .connectionReset || error.kind = .brokenPipe
  | _ => false

/-- `supervisor_session_error_is_protocol`. -/
def supervisorSessionErrorIsProtocol : LibdenoError → Bool
  | .runtime _ _ => true
  | .io error => error.kind = .invalidData
  | _ => false

/-- `supervisor_session_failure_category`. -/
def supervisorSessionFailureCategory (error : LibdenoError)
    (cleanup : Except IoError SupervisorChildReap) (cancellation : SupervisorCancellation) :
    Option SupervisorFailureCategory :=
  match cleanup with
  | .error _ => some .infrastructure
  | .ok reap =>
      if cancellation.isRequested then
        match cancellation.reason with
        | .deadline => some .timeout
        | .user | .shutdown => none
      else if !reap.forcedKill && (supervisorSessionErrorIsNaturalExit error ||
          supervisorSessionErrorIsTimeout error && !supervisorSessionErrorIsProtocol error) then
        some .childCrash
      else if supervisorSessionErrorIsTimeout error then some .timeout
      else some .infrastructure

/-! ### The accepted TERMINAL -/

/-- `collection_deadline_error`, when the deadline won. -/
def collectionDeadlineError (cancellation : SupervisorCancellation)
    (partialOutput : Option SupervisorPartialOutput)
    (transportStatus : SupervisorTransportStatus) : SupervisedSubprocessError :=
  match cancellation.requestedReason with
  | some .user =>
      .categorised none (supervisorCancelError .user) partialOutput transportStatus
  | some .shutdown =>
      .categorised none (supervisorCancelError .shutdown) partialOutput transportStatus
  | some .deadline | none =>
      .withCategoryAndPartial .timeout partialOutput (some .directChild) (some transportStatus)

/-- A check that answers no more than whether it passed. -/
def passes {ε : Type} : Except ε Unit → Bool
  | .ok () => true
  | .error _ => false

/-- `matches!(error, LibdenoError::Timeout(_))`. -/
def LibdenoError.isTimeout : LibdenoError → Bool
  | .timeout _ => true
  | _ => false

/-- The category reported with the error the TERMINAL was mapped to. -/
def terminalFailureCategory (error : LibdenoError) (terminal : SupervisorTerminal)
    (status : Option Int) (forcedKill : Bool) (cancellationBeforeTerminal : Option CancelReason) :
    Option SupervisorFailureCategory :=
  let timedOut := error.isTimeout
  let withdrawn :=
    cancellationBeforeTerminal = some .user || cancellationBeforeTerminal = some .shutdown
  if timedOut && terminal.outcome = .deadline && !withdrawn then some .timeout
  else if withdrawn || terminal.outcome = .cancelled || timedOut then none
  else if terminal.outcome = .failed && passes (validateSupervisorTerminalShape terminal) &&
      passes (validateSupervisorTerminalStatus terminal status forcedKill) then
    terminal.category
  else some .infrastructure

/-- `run_supervised_subprocess_with_executable_observed_and_started`, from the end of the
session on. -/
def supervisedRunResult (session : Except LibdenoError SupervisorSessionOutcome)
    (cleanup : Except IoError SupervisorChildReap) (cancellation : SupervisorCancellation)
    (partialOutput : Option SupervisorPartialOutput) (collectionDeadlineWon : Bool) :
    Except SupervisedSubprocessError SupervisorRunResult :=
  match session with
  | .error error =>
      .error (.categorised (supervisorSessionFailureCategory error cleanup cancellation)
        (supervisorCancelError cancellation.reason) partialOutput .failed)
  | .ok session =>
      match cleanup with
      | .error _ =>
          .error (.withCategoryAndPartial .infrastructure partialOutput (some .directChild)
            (some .failed))
      | .ok reap =>
          let captureTransportFailed :=
            partialOutput.any fun output => output.incomplete || output.readerError
          let transportStatus :=
            if captureTransportFailed then .failed else session.transportStatus
          match mapSupervisorTerminalWithCancellation session.terminal reap.status reap.forcedKill
            session.cancellationBeforeTerminal with
          | .ok output =>
              if collectionDeadlineWon then
                .error (collectionDeadlineError cancellation partialOutput transportStatus)
              else
                .ok { exitCode := output.exitCode, partialOutput,
                      cleanupStrength := .directChild, transportStatus }
          | .error error =>
              .error (.categorised
                (terminalFailureCategory error session.terminal reap.status reap.forcedKill
                  session.cancellationBeforeTerminal)
                error partialOutput transportStatus)

/-! ### The result of a TERMINAL -/

/-- The process status agrees with the TERMINAL, or the child was killed after it. -/
def StatusAgrees (terminal : SupervisorTerminal) (status : Option Int) (forcedKill : Bool) :
    Prop :=
  forcedKill = true ∨ status = some (expectedStatus terminal)

section Mapping

variable {terminal : SupervisorTerminal} {status : Option Int} {forcedKill : Bool}

theorem validateSupervisorTerminalStatus_ok :
    validateSupervisorTerminalStatus terminal status forcedKill = .ok () ↔
      StatusAgrees terminal status forcedKill := by
  unfold validateSupervisorTerminalStatus StatusAgrees
  cases forcedKill with
  | true => simp
  | false =>
      by_cases h : status = some (expectedStatus terminal)
      · simp [h]
      · simp [h]

theorem passes_iff {ε : Type} {check : Except ε Unit} : passes check = true ↔ check = .ok () := by
  cases check <;> simp [passes]

theorem StatusAgrees.of_pass {expected : Int} (h : expectedStatus terminal = expected)
    (pass : ¬ (!forcedKill && status ≠ some expected) = true) :
    StatusAgrees terminal status forcedKill := by
  cases forcedKill with
  | true => exact .inl rfl
  | false =>
      refine .inr ?_
      rw [h]
      simpa using pass

/-- A TERMINAL whose shape or status is wrong is mapped to an error that is no timeout. -/
theorem mapSupervisorTerminal_invalid (recorded : Option CancelReason)
    (invalid : ¬ (validateSupervisorTerminalShape terminal = .ok () ∧
      StatusAgrees terminal status forcedKill)) :
    ∃ error, mapSupervisorTerminalWithCancellation terminal status forcedKill recorded =
      .error error ∧ ∀ message, error ≠ .timeout message := by
  unfold mapSupervisorTerminalWithCancellation
  cases hshape : validateSupervisorTerminalShape terminal with
  | error error => exact ⟨_, rfl, fun message h => by cases h⟩
  | ok _ =>
      have hdisagrees : ¬ StatusAgrees terminal status forcedKill := fun h => invalid ⟨hshape, h⟩
      dsimp only
      cases recorded with
      | some reason =>
          unfold validateSupervisorTerminalStatus
          have hforced : ¬ forcedKill = true := fun h => hdisagrees (.inl h)
          have hstatus : status ≠ some (expectedStatus terminal) := fun h => hdisagrees (.inr h)
          rw [if_neg hforced, if_pos hstatus]
          exact ⟨_, rfl, fun message h => by cases h⟩
      | none =>
          -- Each outcome compares the status with what it expects.
          have hfails : ∀ expected, expectedStatus terminal = expected →
              (!forcedKill && status ≠ some expected) = true := fun expected h => by
            by_contra hpass
            exact hdisagrees (.of_pass h hpass)
          cases houtcome : terminal.outcome with
          | completed =>
              dsimp only
              rw [if_pos (hfails _ (by rw [expectedStatus, houtcome]))]
              exact ⟨_, rfl, fun message h => by cases h⟩
          | cancelled =>
              dsimp only
              rw [if_pos (hfails _ (by rw [expectedStatus, houtcome]))]
              exact ⟨_, rfl, fun message h => by cases h⟩
          | deadline =>
              dsimp only
              rw [if_pos (hfails _ (by rw [expectedStatus, houtcome]))]
              exact ⟨_, rfl, fun message h => by cases h⟩
          | failed =>
              dsimp only
              rw [if_pos (hfails _ (by rw [expectedStatus, houtcome]))]
              exact ⟨_, rfl, fun message h => by cases h⟩

/-- Ok exactly for a valid TERMINAL that stands for a result, without a recorded
cancellation. -/
theorem mapSupervisorTerminal_ok {recorded : Option CancelReason} {output : RunOutput} :
    mapSupervisorTerminalWithCancellation terminal status forcedKill recorded = .ok output ↔
      recorded = none ∧ validateSupervisorTerminalShape terminal = .ok () ∧
        StatusAgrees terminal status forcedKill ∧ terminalResult terminal = .ok output := by
  by_cases hvalid : validateSupervisorTerminalShape terminal = .ok () ∧
      StatusAgrees terminal status forcedKill
  · rw [mapSupervisorTerminal_eq hvalid.1 hvalid.2]
    cases recorded with
    | some reason => simp [reconciled]
    | none => simp [reconciled, hvalid]
  · obtain ⟨error, herror, -⟩ := mapSupervisorTerminal_invalid recorded hvalid
    rw [herror]
    refine ⟨fun h => (by cases h), fun h => ?_⟩
    exact absurd ⟨h.2.1, h.2.2.1⟩ hvalid

/-- A TERMINAL stands for a result exactly when it is Completed, of valid shape. -/
theorem terminalResult_ok (shape : validateSupervisorTerminalShape terminal = .ok ())
    {output : RunOutput} :
    terminalResult terminal = .ok output ↔
      terminal.outcome = .completed ∧ terminal.exitCode = some output.exitCode ∧
        output = { exitCode := output.exitCode, stdout := [], stderr := [],
                   captureTruncated := false } := by
  obtain ⟨-, hstdout, hstderr, htruncated⟩ := validateSupervisorTerminalShape_ok.mp shape
  unfold terminalResult
  cases houtcome : terminal.outcome with
  | completed =>
      obtain ⟨code, hcode⟩ := exitCode_of_completed shape houtcome
      simp only [hcode, hstdout, hstderr, htruncated, Option.getD_some]
      constructor
      · intro h
        obtain rfl := Except.ok.inj h
        simp
      · rintro ⟨-, hexit, houtput⟩
        rw [Option.some.inj hexit, ← houtput]
  | cancelled => simp
  | deadline => simp
  | failed => simp

/-- The branches that choose a category. -/
theorem terminalFailureCategory_some {recorded : Option CancelReason} {error : LibdenoError}
    {category : SupervisorFailureCategory}
    (h : terminalFailureCategory error terminal status forcedKill recorded = some category) :
    category = .timeout ∧ terminal.outcome = .deadline ∨
      terminal.outcome = .failed ∧ validateSupervisorTerminalShape terminal = .ok () ∧
        StatusAgrees terminal status forcedKill ∧ terminal.category = some category ∨
      category = .infrastructure := by
  unfold terminalFailureCategory at h
  dsimp only at h
  split at h
  · next hdeadline =>
    simp only [Bool.and_eq_true, decide_eq_true_eq] at hdeadline
    exact .inl ⟨(Option.some.inj h).symm, hdeadline.1.2⟩
  · split at h
    · cases h
    · split at h
      · next hfailed =>
        simp only [Bool.and_eq_true, decide_eq_true_eq, passes_iff,
          validateSupervisorTerminalStatus_ok] at hfailed
        exact .inr (.inl ⟨hfailed.1.1, hfailed.1.2, hfailed.2, h⟩)
      · exact .inr (.inr (Option.some.inj h).symm)

/-- What an invalid Failed TERMINAL says about its category is not reported. -/
theorem terminalFailureCategory_invalid {recorded : Option CancelReason} {error : LibdenoError}
    (failed : terminal.outcome = .failed)
    (invalid : ¬ (validateSupervisorTerminalShape terminal = .ok () ∧
      StatusAgrees terminal status forcedKill))
    (mapped : mapSupervisorTerminalWithCancellation terminal status forcedKill recorded =
      .error error) :
    terminalFailureCategory error terminal status forcedKill recorded =
      if recorded = some .user ∨ recorded = some .shutdown then none
      else some .infrastructure := by
  obtain ⟨error', herror, htimeout⟩ := mapSupervisorTerminal_invalid recorded invalid
  obtain rfl := Except.error.inj (mapped.symm.trans herror)
  have htimedOut : error.isTimeout = false := by
    cases error with
    | timeout message => exact absurd rfl (htimeout message)
    | _ => rfl
  have hpasses : (passes (validateSupervisorTerminalShape terminal) &&
      passes (validateSupervisorTerminalStatus terminal status forcedKill)) = false := by
    rw [Bool.eq_false_iff]
    intro h
    rw [Bool.and_eq_true, passes_iff, passes_iff, validateSupervisorTerminalStatus_ok] at h
    exact invalid h
  unfold terminalFailureCategory
  simp [htimedOut, failed, hpasses]

end Mapping

/-! ### The result of a run -/

section Run

variable {session : SupervisorSessionOutcome} {reap : SupervisorChildReap}
  {cancellation : SupervisorCancellation} {partialOutput : Option SupervisorPartialOutput}
  {collectionDeadlineWon : Bool}

/-- What the TERMINAL of a session was mapped to. -/
def SupervisorSessionOutcome.mapped (session : SupervisorSessionOutcome)
    (reap : SupervisorChildReap) : Except LibdenoError RunOutput :=
  mapSupervisorTerminalWithCancellation session.terminal reap.status reap.forcedKill
    session.cancellationBeforeTerminal

/-- A TERMINAL mapped to a result makes the run Ok, unless the deadline won. -/
theorem supervisedRunResult_mapped_ok {output : RunOutput} (mapped : session.mapped reap = .ok output)
    (collected : collectionDeadlineWon = false) :
    ∃ result, supervisedRunResult (.ok session) (.ok reap) cancellation partialOutput
        collectionDeadlineWon = .ok result ∧ result.exitCode = output.exitCode := by
  unfold SupervisorSessionOutcome.mapped at mapped
  unfold supervisedRunResult
  dsimp only
  rw [mapped, collected]
  exact ⟨_, rfl, rfl⟩

/-- A run that has a TERMINAL fails with the category chosen for it, or because the deadline
won. -/
theorem supervisedRunResult_error {error : SupervisedSubprocessError}
    (run : supervisedRunResult (.ok session) (.ok reap) cancellation partialOutput
      collectionDeadlineWon = .error error) :
    (∃ mappedError, session.mapped reap = .error mappedError ∧
      error.category = terminalFailureCategory mappedError session.terminal reap.status
        reap.forcedKill session.cancellationBeforeTerminal) ∨
    ((∃ output, session.mapped reap = .ok output) ∧ collectionDeadlineWon = true ∧
      (error.category = none ∨ error.category = some .timeout)) := by
  unfold supervisedRunResult at run
  unfold SupervisorSessionOutcome.mapped
  dsimp only at run
  cases hmapped : mapSupervisorTerminalWithCancellation session.terminal reap.status
      reap.forcedKill session.cancellationBeforeTerminal with
  | error mappedError =>
      rw [hmapped] at run
      obtain rfl := Except.error.inj run
      exact .inl ⟨mappedError, rfl, categorised_category _ _ _ _⟩
  | ok output =>
      rw [hmapped] at run
      cases collectionDeadlineWon with
      | false => cases run
      | true =>
          obtain rfl := Except.error.inj run
          refine .inr ⟨⟨output, rfl⟩, rfl, ?_⟩
          unfold collectionDeadlineError
          split
          · exact .inl rfl
          · exact .inl rfl
          · exact .inr rfl
          · exact .inr rfl

end Run

/-- **The result of a supervised run.** The mapping of an accepted TERMINAL is never Ok
when a cancellation was recorded before it; it is Ok with an exit code exactly when none
was, the TERMINAL is a Completed one of valid shape with this code, and the status agrees
or the child was force-killed. Of a run with this TERMINAL: a category it reports is that of
a Failed TERMINAL of valid shape whose status agrees (or forced kill), or is Timeout or
Infrastructure whatever the TERMINAL says; a Failed TERMINAL that is not so has its
category reported in no case; and the run is Ok, with the code, when the mapping is and
the deadline did not win while the output was collected. -/
theorem supervised_run_result (session : SupervisorSessionOutcome) (reap : SupervisorChildReap)
    (cancellation : SupervisorCancellation) (partialOutput : Option SupervisorPartialOutput)
    (collectionDeadlineWon : Bool) :
    (session.cancellationBeforeTerminal ≠ none → ∀ output, session.mapped reap ≠ .ok output) ∧
    (∀ exitCode, (∃ output, session.mapped reap = .ok output ∧ output.exitCode = exitCode) ↔
      session.cancellationBeforeTerminal = none ∧
        validateSupervisorTerminalShape session.terminal = .ok () ∧
        session.terminal.outcome = .completed ∧ session.terminal.exitCode = some exitCode ∧
        (reap.status = some (supervisorExitCodeForStatus exitCode) ∨ reap.forcedKill = true)) ∧
    (∀ error category,
      supervisedRunResult (.ok session) (.ok reap) cancellation partialOutput
        collectionDeadlineWon = .error error →
      error.category = some category →
      (session.terminal.outcome = .failed ∧ session.terminal.category = some category ∧
        validateSupervisorTerminalShape session.terminal = .ok () ∧
        StatusAgrees session.terminal reap.status reap.forcedKill) ∨
      category = .timeout ∨ category = .infrastructure) ∧
    (∀ error,
      supervisedRunResult (.ok session) (.ok reap) cancellation partialOutput
        collectionDeadlineWon = .error error →
      session.terminal.outcome = .failed →
      ¬ (validateSupervisorTerminalShape session.terminal = .ok () ∧
        StatusAgrees session.terminal reap.status reap.forcedKill) →
      error.category = if session.cancellationBeforeTerminal = some .user ∨
        session.cancellationBeforeTerminal = some .shutdown then none else some .infrastructure) ∧
    ∀ output, session.mapped reap = .ok output → collectionDeadlineWon = false →
      ∃ result, supervisedRunResult (.ok session) (.ok reap) cancellation partialOutput
        collectionDeadlineWon = .ok result ∧ result.exitCode = output.exitCode := by
  refine ⟨fun hrecorded output hmapped => ?_, fun exitCode => ⟨?_, ?_⟩,
    fun error category hrun hcategory => ?_, fun error hrun hfailed hinvalid => ?_,
    fun output => supervisedRunResult_mapped_ok⟩
  · exact hrecorded (mapSupervisorTerminal_ok.mp hmapped).1
  · rintro ⟨output, hmapped, rfl⟩
    obtain ⟨hrecorded, hshape, hagrees, hresult⟩ := mapSupervisorTerminal_ok.mp hmapped
    obtain ⟨houtcome, hcode, -⟩ := (terminalResult_ok hshape).mp hresult
    refine ⟨hrecorded, hshape, houtcome, hcode, ?_⟩
    rcases hagrees with hforced | hstatus
    · exact .inr hforced
    · refine .inl ?_
      rw [hstatus, expectedStatus, houtcome, hcode]
      rfl
  · rintro ⟨hrecorded, hshape, houtcome, hcode, hstatus⟩
    refine ⟨{ exitCode, stdout := [], stderr := [], captureTruncated := false },
      mapSupervisorTerminal_ok.mpr ⟨hrecorded, hshape, ?_,
        (terminalResult_ok hshape).mpr ⟨houtcome, hcode, rfl⟩⟩, rfl⟩
    rcases hstatus with hstatus | hforced
    · refine .inr ?_
      rw [hstatus, expectedStatus, houtcome, hcode]
      rfl
    · exact .inl hforced
  · rcases supervisedRunResult_error hrun with ⟨mappedError, -, hchosen⟩ | ⟨-, -, hnone | htimeout⟩
    · rw [hcategory] at hchosen
      rcases terminalFailureCategory_some hchosen.symm with ⟨htimeout, -⟩ |
        ⟨houtcome, hshape, hagrees, htaken⟩ | hinfrastructure
      · exact .inr (.inl htimeout)
      · exact .inl ⟨houtcome, htaken, hshape, hagrees⟩
      · exact .inr (.inr hinfrastructure)
    · rw [hnone] at hcategory
      cases hcategory
    · rw [htimeout] at hcategory
      exact .inr (.inl (Option.some.inj hcategory).symm)
  · rcases supervisedRunResult_error hrun with ⟨mappedError, hmapped, hchosen⟩ | ⟨⟨output, hok⟩, -⟩
    · rw [hchosen]
      exact terminalFailureCategory_invalid hfailed hinvalid hmapped
    · obtain ⟨-, hshape, hagrees, -⟩ := mapSupervisorTerminal_ok.mp hok
      exact absurd ⟨hshape, hagrees⟩ hinvalid

end Libdeno.Supervisor
