import Libdeno.Executor.Result

/-!
# Libdeno.Executor.TaskControl

`TaskControl`: the lifecycle of one execution and its recorded cancellation. Each
`mark_*` function here is the section of the source that runs under the control's
lock; what a section then asks of the cancellation context, after the lock is
dropped, is part of its answer.

`ControlChange` lists everything that can happen to a control, and the facts about
lifecycles are read off that list.
-/

namespace Libdeno.Executor

open Supervisor

/-- `ExecutionState`. -/
inductive ExecutionState
  | queued
  | acceptedNotStarted
  | started
  | cancelling
  | terminated
  | completed
  | failed
  deriving Repr, DecidableEq

/-- `TaskControl::is_terminal`. -/
def ExecutionState.isTerminal : ExecutionState → Bool
  | .terminated | .completed | .failed => true
  | _ => false

/-- `CancelOutcome`. -/
inductive CancelOutcome
  | requested
  | alreadyRequested
  | alreadyTerminal
  | notEnforceableForStartedSubprocess
  deriving Repr, DecidableEq

/-- `TaskControl`, with the fields of its `ControlState`. -/
structure TaskControl where
  id : UInt64
  backend : ExecutionBackend
  deadline : Option Nat
  cancellation : CancellationContext
  lifecycle : ExecutionState
  cancelReason : Option CancelReason
  deriving Repr, DecidableEq

namespace TaskControl

/-- `TaskControl::new`. -/
def new (id : UInt64) (backend : ExecutionBackend) (deadline : Option Nat) : TaskControl where
  id := id
  backend := backend
  deadline := deadline
  cancellation := .new
  lifecycle := .queued
  cancelReason := none

/-- `mark_accepted`. -/
def markAccepted (self : TaskControl) : TaskControl :=
  if self.lifecycle = .queued then { self with lifecycle := .acceptedNotStarted } else self

/-- `begin_start`: whether the backend may run, and what is then requested of the
cancellation context. -/
def beginStart (self : TaskControl) (now : Nat) : Bool × Option CancelReason × TaskControl :=
  if self.lifecycle.isTerminal || self.cancelReason.isSome then
    (false, none, self)
  else if self.deadline.any (· ≤ now) then
    (false, some .deadline,
      { self with cancelReason := some .deadline, lifecycle := .cancelling })
  -- Supervised subprocesses publish Started only after a valid STARTED.
  else if self.backend ≠ .subprocess then
    (true, none, { self with lifecycle := .started })
  else
    (true, none, self)

/-- `mark_started`. -/
def markStarted (self : TaskControl) : Bool × TaskControl :=
  if self.lifecycle = .acceptedNotStarted ∧ self.cancelReason = none then
    (true, { self with lifecycle := .started })
  else
    (false, self)

/-- `mark_cancelling`, up to the request on the context, which follows exactly when
the answer is `Requested`. -/
def markCancelling (self : TaskControl) (reason : CancelReason) : CancelOutcome × TaskControl :=
  if self.lifecycle.isTerminal then
    (.alreadyTerminal, self)
  else if self.cancelReason.isSome then
    (.alreadyRequested, self)
  else
    (.requested, { self with cancelReason := some reason, lifecycle := .cancelling })

/-- `mark_terminal`. -/
def markTerminal (self : TaskControl) (lifecycle : ExecutionState) : Bool × TaskControl :=
  if self.lifecycle.isTerminal then (false, self) else (true, { self with lifecycle })

/-! ### Failures -/

/-- `report_with_metadata`. -/
def reportWithMetadata (self : TaskControl) (dispatched : Option ExecutionBackend)
    (cleanupStrength : Option ExecutionCleanupStrength)
    (transportStatus : Option ExecutionTransportStatus) : ExecutionReport where
  requestedBackend := self.backend
  dispatchedBackend := dispatched
  backendOutcome := .failed
  cleanupStrength := cleanupStrength
  transportStatus := transportStatus

/-- `report`. -/
def report (self : TaskControl) (dispatched : Option ExecutionBackend) : ExecutionReport :=
  self.reportWithMetadata dispatched none none

/-- The error a recorded reason stands for: `deadline_failure*` and
`cancelled_failure*` differ in nothing else. -/
def reasonError : CancelReason → ExecutionError
  | .deadline => .libdeno (.timeout "execution request deadline exceeded")
  | .user | .shutdown => .cancelled

/-- `deadline_failure_with_partial_and_metadata` and
`cancelled_failure_with_partial_and_metadata`, by reason. -/
def reasonFailureWithPartialAndMetadata (self : TaskControl) (reason : CancelReason)
    (dispatched : Option ExecutionBackend)
    (cleanupStrength : Option ExecutionCleanupStrength)
    (transportStatus : Option ExecutionTransportStatus)
    (partialOutput : Option ExecutionOutput) : ExecutionFailure where
  error := reasonError reason
  report := self.reportWithMetadata dispatched cleanupStrength transportStatus
  partialOutput := partialOutput

/-- `deadline_failure(None)` and `cancelled_failure(None)`, by reason. -/
def reasonFailure (self : TaskControl) (reason : CancelReason) : ExecutionFailure :=
  self.reasonFailureWithPartialAndMetadata reason none none none none

/-- The failures that report an internal error. -/
def internalFailure (self : TaskControl) (message : String)
    (dispatched : Option ExecutionBackend) : ExecutionFailure where
  error := .internal message
  report := self.report dispatched
  partialOutput := none

/-- What `run` reports when `begin_start` refused. -/
def refusedFailure (self : TaskControl) : ExecutionFailure :=
  match self.cancelReason with
  | some reason => self.reasonFailure reason
  | none => self.internalFailure "submission was not startable" none

/-- The failure of the recorded reason, with what the backend's result says about
cleanup, transport and output. -/
def cancelledResult (self : TaskControl) (reason : CancelReason) (backendResult : Outcome)
    (dispatched : ExecutionBackend) : ExecutionFailure :=
  self.reasonFailureWithPartialAndMetadata reason (some dispatched)
    (Outcome.report backendResult).cleanupStrength
    (Outcome.report backendResult).transportStatus
    (backendResultPartialOutput backendResult dispatched)

/-- The terminal state of a supervisor failure that is kept. -/
def supervisorLifecycle (category : SupervisorFailureCategory) : ExecutionState :=
  if category = .timeout then .terminated else .failed

/-- The terminal state of a backend failure without a recorded reason. -/
def failureLifecycle (failure : ExecutionFailure) : ExecutionState :=
  match failure.error with
  | .libdeno (.timeout _) | .supervisor .timeout => .terminated
  | _ => .failed

/-- The terminal state and the published result of a backend's result: a kept
supervisor failure first, then the recorded reason, then the result itself. -/
def resolution (self : TaskControl) (backendResult : Outcome) (dispatched : ExecutionBackend) :
    ExecutionState × Outcome :=
  match supervisorFailure backendResult with
  | some (failure, category) => (supervisorLifecycle category, .error failure)
  | none =>
      match self.cancelReason with
      | some reason =>
          (.terminated, .error (self.cancelledResult reason backendResult dispatched))
      | none =>
          match backendResult with
          | .ok result => (.completed, .ok result)
          | .error failure => (failureLifecycle failure, .error failure)

/-- `resolve_backend_result`. -/
def resolveBackendResult (self : TaskControl) (backendResult : Outcome)
    (dispatched : ExecutionBackend) : Option (ExecutionState × Outcome) × TaskControl :=
  if self.lifecycle.isTerminal then
    (none, self)
  else
    let resolved := self.resolution backendResult dispatched
    (some resolved, { self with lifecycle := resolved.1 })

end TaskControl

/-! ### Everything that can happen to a control -/

/-- The changes a control can go through, each with its guard. -/
inductive ControlChange (c : TaskControl) : TaskControl → Prop
  | unchanged : ControlChange c c
  | accepted : c.lifecycle = .queued →
      ControlChange c { c with lifecycle := .acceptedNotStarted }
  | begun : c.lifecycle.isTerminal = false → c.cancelReason = none → c.backend ≠ .subprocess →
      ControlChange c { c with lifecycle := .started }
  | started : c.lifecycle = .acceptedNotStarted → c.cancelReason = none →
      ControlChange c { c with lifecycle := .started }
  | cancelling (reason : CancelReason) : c.lifecycle.isTerminal = false →
      c.cancelReason = none →
      ControlChange c { c with cancelReason := some reason, lifecycle := .cancelling }
  | terminal {lifecycle : ExecutionState} : c.lifecycle.isTerminal = false →
      lifecycle.isTerminal = true → (lifecycle = .completed → c.cancelReason = none) →
      ControlChange c { c with lifecycle }
  | insertReason (reason : CancelReason) :
      ControlChange c { c with cancellation := c.cancellation.insertReason reason }
  | storeRequested :
      ControlChange c { c with cancellation := c.cancellation.storeRequested }

section Changes

open TaskControl

variable {c c' : TaskControl}

theorem markAccepted_change (c : TaskControl) : ControlChange c c.markAccepted := by
  unfold markAccepted
  split
  · next h => exact .accepted h
  · exact .unchanged

theorem beginStart_change (c : TaskControl) (now : Nat) :
    ControlChange c (c.beginStart now).2.2 := by
  unfold beginStart
  split
  · exact .unchanged
  · next h =>
    have hopen : c.lifecycle.isTerminal = false ∧ c.cancelReason = none := by simpa using h
    split
    · exact .cancelling .deadline hopen.1 hopen.2
    · split
      · next hbackend => exact .begun hopen.1 hopen.2 hbackend
      · exact .unchanged

theorem markStarted_change (c : TaskControl) : ControlChange c c.markStarted.2 := by
  unfold markStarted
  split
  · next h => exact .started h.1 h.2
  · exact .unchanged

theorem markCancelling_change (c : TaskControl) (reason : CancelReason) :
    ControlChange c (c.markCancelling reason).2 := by
  unfold markCancelling
  split
  · exact .unchanged
  · next hopen =>
    split
    · exact .unchanged
    · next hnone => exact .cancelling reason (by simpa using hopen) (by simpa using hnone)

theorem markTerminal_change (c : TaskControl) {lifecycle : ExecutionState}
    (terminal : lifecycle.isTerminal = true) (failed : lifecycle ≠ .completed) :
    ControlChange c (c.markTerminal lifecycle).2 := by
  unfold markTerminal
  split
  · exact .unchanged
  · next hopen => exact .terminal (by simpa using hopen) terminal fun h => absurd h failed

/-- `mark_cancelling` answers `Requested` exactly when it records the reason. -/
theorem markCancelling_requested {reason : CancelReason}
    (h : (c.markCancelling reason).1 = .requested) :
    c.lifecycle.isTerminal = false ∧ c.cancelReason = none ∧
      (c.markCancelling reason).2 =
        { c with cancelReason := some reason, lifecycle := .cancelling } := by
  unfold markCancelling at h ⊢
  split
  · next hterminal => simp [hterminal] at h
  · next hopen =>
    split
    · next hsome => simp [hopen, hsome] at h
    · next hnone => exact ⟨by simpa using hopen, by simpa using hnone, rfl⟩

/-- After `mark_cancelling` a control is terminal or has a reason. -/
theorem markCancelling_settles (c : TaskControl) (reason : CancelReason) :
    (c.markCancelling reason).2.lifecycle.isTerminal = true ∨
      (c.markCancelling reason).2.cancelReason ≠ none := by
  unfold markCancelling
  split
  · next h => exact .inl h
  · split
    · next h => exact .inr (by simpa [Option.isSome_iff_ne_none] using h)
    · exact .inr (by simp)

/-- A start granted: the control was open, and an in-process one is now Started. -/
theorem beginStart_granted {now : Nat} (h : (c.beginStart now).1 = true) :
    c.lifecycle.isTerminal = false ∧ c.cancelReason = none ∧ (c.beginStart now).2.1 = none ∧
      (c.beginStart now).2.2 =
        if c.backend ≠ .subprocess then { c with lifecycle := .started } else c := by
  unfold beginStart at h ⊢
  split
  · next hclosed => simp [hclosed] at h
  · next hopen =>
    have hopen' : c.lifecycle.isTerminal = false ∧ c.cancelReason = none := by simpa using hopen
    split
    · next hdue => simp [hopen, hdue] at h
    · refine ⟨hopen'.1, hopen'.2, ?_⟩
      split <;> simp_all

/-- A start refused leaves a control that is terminal or has a reason. -/
theorem beginStart_refused {now : Nat} (h : (c.beginStart now).1 = false) :
    (c.beginStart now).2.2 = c ∨
      c.lifecycle.isTerminal = false ∧ c.cancelReason = none ∧
      (c.beginStart now).2.2 =
        { c with cancelReason := some .deadline, lifecycle := .cancelling } := by
  unfold beginStart at h ⊢
  split
  · exact .inl rfl
  · next hopen =>
    have hopen' : c.lifecycle.isTerminal = false ∧ c.cancelReason = none := by simpa using hopen
    split
    · exact .inr ⟨hopen'.1, hopen'.2, rfl⟩
    · next hdue =>
      split
      · next hbackend => simp [hopen, hdue, hbackend] at h
      · exact .inl rfl

theorem isTerminal_supervisorLifecycle (category : SupervisorFailureCategory) :
    (supervisorLifecycle category).isTerminal = true ∧
      supervisorLifecycle category ≠ .completed := by
  unfold supervisorLifecycle
  split <;> exact ⟨rfl, by decide⟩

theorem isTerminal_failureLifecycle (failure : ExecutionFailure) :
    (failureLifecycle failure).isTerminal = true ∧ failureLifecycle failure ≠ .completed := by
  unfold failureLifecycle
  split <;> exact ⟨rfl, by decide⟩

/-- What `resolve_backend_result` publishes for a recorded reason: the reason's
failure, unless the backend reported a supervisor timeout or infrastructure failure. -/
def ResolvedFrom (c : TaskControl) (backendResult : Outcome) (dispatched : ExecutionBackend)
    (result : Outcome) : Prop :=
  ∀ reason, c.cancelReason = some reason →
    result = match supervisorFailure backendResult with
      | some (failure, _) => .error failure
      | none => .error (c.cancelledResult reason backendResult dispatched)

/-- A resolution is terminal, Completed exactly with a result, and then no reason was
recorded. -/
theorem resolution_spec (c : TaskControl) (backendResult : Outcome)
    (dispatched : ExecutionBackend) :
    (c.resolution backendResult dispatched).1.isTerminal = true ∧
      (Outcome.isOk (c.resolution backendResult dispatched).2 = true ↔
        (c.resolution backendResult dispatched).1 = .completed) ∧
      ((c.resolution backendResult dispatched).1 = .completed → c.cancelReason = none) ∧
      ResolvedFrom c backendResult dispatched (c.resolution backendResult dispatched).2 := by
  unfold resolution ResolvedFrom
  cases hkept : supervisorFailure backendResult with
  | some kept =>
      obtain ⟨failure, category⟩ := kept
      obtain ⟨hterminal, hfailed⟩ := isTerminal_supervisorLifecycle category
      exact ⟨hterminal, by simp [Outcome.isOk, hfailed], fun h => absurd h hfailed,
        fun _ _ => rfl⟩
  | none =>
      cases hreason : c.cancelReason with
      | some reason =>
          exact ⟨rfl, by simp [Outcome.isOk], by simp, by simp⟩
      | none =>
          cases backendResult with
          | ok result => exact ⟨rfl, by simp [Outcome.isOk], fun _ => rfl, by simp⟩
          | error failure =>
              obtain ⟨hterminal, hfailed⟩ := isTerminal_failureLifecycle failure
              exact ⟨hterminal, by simp [Outcome.isOk, hfailed], fun _ => rfl, by simp⟩

/-- Everything about a successful resolution. -/
theorem resolveBackendResult_some {backendResult result : Outcome}
    {dispatched : ExecutionBackend} {lifecycle : ExecutionState}
    (h : c.resolveBackendResult backendResult dispatched = (some (lifecycle, result), c')) :
    c.lifecycle.isTerminal = false ∧ c' = { c with lifecycle } ∧
      lifecycle.isTerminal = true ∧ (Outcome.isOk result = true ↔ lifecycle = .completed) ∧
      (lifecycle = .completed → c.cancelReason = none) ∧
      ResolvedFrom c backendResult dispatched result := by
  unfold resolveBackendResult at h
  split at h
  · cases h
  · next hopen =>
    simp only [Prod.mk.injEq, Option.some.injEq] at h
    obtain ⟨hresolved, rfl⟩ := h
    have spec := resolution_spec c backendResult dispatched
    rw [hresolved] at spec ⊢
    exact ⟨by simpa using hopen, rfl, spec⟩

/-- It answers nothing only on a terminal control, which it leaves alone. -/
theorem resolveBackendResult_none {backendResult : Outcome} {dispatched : ExecutionBackend}
    (h : c.resolveBackendResult backendResult dispatched = (none, c')) :
    c.lifecycle.isTerminal = true ∧ c' = c := by
  unfold resolveBackendResult at h
  split at h
  · next hterminal =>
    obtain ⟨-, rfl⟩ := by simpa using h
    exact ⟨hterminal, rfl⟩
  · cases h

theorem resolveBackendResult_change {backendResult : Outcome} {dispatched : ExecutionBackend}
    {answer : Option (ExecutionState × Outcome)}
    (h : c.resolveBackendResult backendResult dispatched = (answer, c')) :
    ControlChange c c' := by
  cases answer with
  | none =>
      obtain ⟨-, rfl⟩ := resolveBackendResult_none h
      exact .unchanged
  | some answer =>
      obtain ⟨lifecycle, result⟩ := answer
      obtain ⟨hopen, rfl, hterminal, -, hcompleted, -⟩ := resolveBackendResult_some h
      exact .terminal hopen hterminal hcompleted

/-! ### Lifecycles -/

/-- How far a lifecycle has come. -/
def ExecutionState.rank : ExecutionState → Nat
  | .queued => 0
  | .acceptedNotStarted => 1
  | .started => 2
  | .cancelling => 3
  | .terminated | .completed | .failed => 4

/-- A lifecycle stays or moves forward; a terminal one stays. -/
def ExecutionState.Forward (a b : ExecutionState) : Prop := a = b ∨ a.rank < b.rank

theorem ExecutionState.Forward.refl (a : ExecutionState) : a.Forward a := .inl rfl

theorem ExecutionState.Forward.trans {a b c : ExecutionState} (hab : a.Forward b)
    (hbc : b.Forward c) : a.Forward c := by
  rcases hab with rfl | hab
  · exact hbc
  · rcases hbc with rfl | hbc
    · exact .inr hab
    · exact .inr (Nat.lt_trans hab hbc)

/-- The lifecycle agrees with the recorded reason. -/
structure TaskControl.Coherent (c : TaskControl) : Prop where
  cancelling : c.lifecycle = .cancelling → c.cancelReason ≠ none
  reason : c.cancelReason ≠ none → c.lifecycle = .cancelling ∨
    c.lifecycle = .terminated ∨ c.lifecycle = .failed

theorem TaskControl.Coherent.new (id : UInt64) (backend : ExecutionBackend)
    (deadline : Option Nat) : (TaskControl.new id backend deadline).Coherent :=
  ⟨by simp [TaskControl.new], by simp [TaskControl.new]⟩

theorem ControlChange.coherent (change : ControlChange c c') (inv : c.Coherent) :
    c'.Coherent := by
  obtain ⟨hcancelling, hreason⟩ := inv
  cases change with
  | unchanged => exact ⟨hcancelling, hreason⟩
  | accepted h =>
      refine ⟨by simp, fun hsome => ?_⟩
      have := hreason hsome
      simp [h] at this
  | begun hopen hnone hbackend => exact ⟨by simp, fun hsome => absurd hnone hsome⟩
  | started h hnone => exact ⟨by simp, fun hsome => absurd hnone hsome⟩
  | cancelling reason hopen hnone => exact ⟨by simp, by simp⟩
  | @terminal lifecycle hopen hterminal hcompleted =>
      refine ⟨?_, fun hsome => ?_⟩
      · rintro rfl
        cases hterminal
      · cases lifecycle <;> simp_all [ExecutionState.isTerminal]
  | insertReason reason => exact ⟨hcancelling, hreason⟩
  | storeRequested => exact ⟨hcancelling, hreason⟩

/-- A lifecycle only moves forward. -/
theorem ControlChange.forward (change : ControlChange c c') (inv : c.Coherent) :
    c.lifecycle.Forward c'.lifecycle := by
  have hbefore : c.lifecycle.isTerminal = false → c.cancelReason = none →
      c.lifecycle = .started ∨ c.lifecycle.rank < ExecutionState.started.rank := by
    intro hopen hnone
    have hcancelling := inv.cancelling
    cases hl : c.lifecycle <;> simp_all [ExecutionState.isTerminal, ExecutionState.rank]
  cases change with
  | unchanged => exact .refl _
  | accepted h => exact .inr (by simp [h, ExecutionState.rank])
  | begun hopen hnone hbackend => exact hbefore hopen hnone
  | started h hnone => exact .inr (by simp [h, ExecutionState.rank])
  | cancelling reason hopen hnone =>
      rcases hbefore hopen hnone with h | h
      · exact .inr (by simp [h, ExecutionState.rank])
      · exact .inr (Nat.lt_trans h (Nat.lt_succ_self 2))
  | @terminal lifecycle hopen hterminal hcompleted =>
      refine .inr ?_
      have hrank : lifecycle.rank = 4 := by cases lifecycle <;> first | rfl | cases hterminal
      rw [hrank]
      cases hl : c.lifecycle <;> simp_all [ExecutionState.isTerminal, ExecutionState.rank]
  | insertReason reason => exact .refl _
  | storeRequested => exact .refl _

/-- A terminal control keeps its lifecycle and its reason. -/
theorem ControlChange.terminal_stable (change : ControlChange c c')
    (terminal : c.lifecycle.isTerminal = true) :
    c'.lifecycle = c.lifecycle ∧ c'.cancelReason = c.cancelReason := by
  cases change <;> simp_all [ExecutionState.isTerminal]

/-- A recorded reason is never replaced. -/
theorem ControlChange.reason_stable (change : ControlChange c c') {reason : CancelReason}
    (h : c.cancelReason = some reason) : c'.cancelReason = some reason := by
  cases change <;> simp_all

/-- A reason in the context is never replaced. -/
theorem ControlChange.context_reason (change : ControlChange c c')
    (h : c.cancellation.reason ≠ none) : c'.cancellation.reason ≠ none := by
  cases change <;> simp_all

/-- Identity, backend and deadline never change. -/
theorem ControlChange.fixed (change : ControlChange c c') :
    c'.id = c.id ∧ c'.backend = c.backend ∧ c'.deadline = c.deadline := by
  cases change <;> exact ⟨rfl, rfl, rfl⟩

end Changes

end Libdeno.Executor
