import Libdeno.Supervisor.ParentSession

/-!
# Libdeno.Supervisor.ChildSession

The child's side of the protocol: `SupervisorChildSession`. The state `Started`
is the user-code barrier; `ChildChange` shows that a START frame is the only way
through it.
-/

namespace Libdeno.Supervisor

/-- `SupervisorChildState`. -/
inductive SupervisorChildState
  | awaitRequest
  | awaitStart
  | started
  | cancelling
  | terminal
  deriving Repr, DecidableEq

/-- `SupervisorChildSession`. -/
structure SupervisorChildSession where
  requestId : Option UInt64
  state : SupervisorChildState
  cancelReason : Option CancelReason
  terminal : Option SupervisorTerminal
  deriving Repr, DecidableEq

namespace SupervisorChildSession

/-- `SupervisorChildSession::new`. -/
def new : SupervisorChildSession where
  requestId := none
  state := .awaitRequest
  cancelReason := none
  terminal := none

/-- The CANCEL arm of `receive_parent_frame`, after the payload was decoded. -/
def receiveCancel (self : SupervisorChildSession) (reason : CancelReason) :
    Except IoError (Option SupervisorFrameEvent) × SupervisorChildSession :=
  match self.cancelReason with
  | some previous =>
      if previous ≠ reason then
        (.error (invalidData "conflicting supervisor cancellation reason"), self)
      else
        (.ok none, self)
  | none =>
      match self.state with
      | .awaitStart | .started | .cancelling =>
          (.ok none, { self with cancelReason := some reason, state := .cancelling })
      | _ => (.error (invalidData "supervisor CANCEL is out of order"), self)

/-- `receive_parent_frame`. -/
def receiveParentFrame (json : SerdeJson CancelReason) (self : SupervisorChildSession)
    (frame : SupervisorFrame) :
    Except IoError (Option SupervisorFrameEvent) × SupervisorChildSession :=
  if self.requestId.any (frame.requestId ≠ ·) then
    (.error (invalidData "supervisor request ID mismatch"), self)
  else
    match frame.kind, self.state, frame.payload with
    | .request, .awaitRequest, _ =>
        if frame.requestId = 0 then
          (.error (invalidData "invalid supervisor request ID"), self)
        else
          (.ok none, { self with requestId := some frame.requestId, state := .awaitStart })
    | .start, .awaitStart, [] => (.ok (some .started), { self with state := .started })
    | .cancel, _, payload =>
        match decodePayload json payload with
        | .error error => (.error error, self)
        | .ok reason => self.receiveCancel reason
    | _, _, _ => (.error (invalidData "invalid supervisor parent frame"), self)

/-- `mark_terminal`: `Ok(true)` when the terminal is the first one. -/
def markTerminal (self : SupervisorChildSession) (terminal : SupervisorTerminal) :
    Except IoError Bool × SupervisorChildSession :=
  match validateSupervisorTerminalShape terminal with
  | .error error => (.error error, self)
  | .ok () =>
      match self.terminal with
      | some previous =>
          if previous = terminal then
            (.ok false, self)
          else
            (.error (invalidData "conflicting supervisor TERMINAL frames"), self)
      | none =>
          match self.state with
          | .cancelling | .started =>
              (.ok true, { self with terminal := some terminal, state := .terminal })
          | _ => (.error (invalidData "supervisor TERMINAL is out of order"), self)

end SupervisorChildSession

/-! ### Everything an operation can do -/

open SupervisorChildSession

/-- The changes an operation can make to a child session, each with its guard. -/
inductive ChildChange (s : SupervisorChildSession) : SupervisorChildSession → Prop
  | unchanged : ChildChange s s
  | request {requestId : UInt64} : s.state = .awaitRequest → requestId ≠ 0 →
      ChildChange s { s with requestId := some requestId, state := .awaitStart }
  | start : s.state = .awaitStart →
      ChildChange s { s with state := .started }
  | cancel {reason : CancelReason} : s.cancelReason = none →
      s.state = .awaitStart ∨ s.state = .started ∨ s.state = .cancelling →
      ChildChange s { s with cancelReason := some reason, state := .cancelling }
  | terminal {terminal : SupervisorTerminal} :
      validateSupervisorTerminalShape terminal = .ok () → s.terminal = none →
      s.state = .cancelling ∨ s.state = .started →
      ChildChange s { s with terminal := some terminal, state := .terminal }

variable (s : SupervisorChildSession)

theorem receiveCancel_change (reason : CancelReason) :
    ChildChange s (s.receiveCancel reason).2 := by
  unfold receiveCancel
  split
  · split <;> exact .unchanged
  · next hnone =>
    split
    · next h => exact .cancel hnone (.inl h)
    · next h => exact .cancel hnone (.inr (.inl h))
    · next h => exact .cancel hnone (.inr (.inr h))
    · exact .unchanged

theorem receiveParentFrame_change (json : SerdeJson CancelReason) (frame : SupervisorFrame) :
    ChildChange s (s.receiveParentFrame json frame).2 := by
  unfold receiveParentFrame
  split
  · exact .unchanged
  · split
    · next hstate =>
      split
      · exact .unchanged
      · next hid => exact .request hstate hid
    · next hstate _ => exact .start hstate
    · split
      · exact .unchanged
      · exact receiveCancel_change s _
    · exact .unchanged

theorem markTerminal_change (terminal : SupervisorTerminal) :
    ChildChange s (s.markTerminal terminal).2 := by
  unfold markTerminal
  split
  · exact .unchanged
  · next shape =>
    split
    · split <;> exact .unchanged
    · next hnone =>
      split
      · next h => exact .terminal shape hnone (.inl h)
      · next h => exact .terminal shape hnone (.inr h)
      · exact .unchanged

end Libdeno.Supervisor
