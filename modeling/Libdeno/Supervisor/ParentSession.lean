import Libdeno.Supervisor.Payload

/-!
# Libdeno.Supervisor.ParentSession

The parent's side of the protocol: `SupervisorParentSession` and its operations.

An operation mutates the session in place and may fail half way, so each one
returns its result *together with* the session it leaves behind; that an error
leaves the session alone is then a theorem (`ParentOp.apply_error`), not a
convention.

`ParentChange` lists everything an operation can do to the session, with the
guards under which it does it. Every invariant of this development is proved from
that list; no proof outside this module opens the operations themselves.
-/

namespace Libdeno.Supervisor

/-- `SUPERVISOR_REQUEST_ID`. -/
def supervisorRequestId : UInt64 := 1

/-- `SupervisorParentState`. -/
inductive SupervisorParentState
  | awaitHello
  | awaitAccepted
  | accepted
  | awaitStarted
  | started
  | cancellingBeforeAccepted
  | cancellingBeforeStart
  | cancelling
  | terminal
  deriving Repr, DecidableEq

/-- `SupervisorFrameEvent`. -/
inductive SupervisorFrameEvent
  | accepted
  | started
  | terminal
  deriving Repr, DecidableEq

/-- `SupervisorParentSession`. -/
structure SupervisorParentSession where
  requestId : UInt64
  state : SupervisorParentState
  requestSent : Bool
  cancelSent : Bool
  startedReceived : Bool
  cancelReason : Option CancelReason
  terminal : Option SupervisorTerminal
  deriving Repr, DecidableEq

namespace SupervisorParentSession

/-- `SupervisorParentSession::new`. -/
def new (requestId : UInt64) : SupervisorParentSession where
  requestId := requestId
  state := .awaitHello
  requestSent := false
  cancelSent := false
  startedReceived := false
  cancelReason := none
  terminal := none

/-- `cancellation_before_terminal`: `self.terminal.as_ref().and(self.cancel_reason)`. -/
def cancellationBeforeTerminal (self : SupervisorParentSession) : Option CancelReason :=
  if self.terminal.isSome then self.cancelReason else none

/-- `accept_hello`. -/
def acceptHello (self : SupervisorParentSession) (frame : SupervisorFrame)
    (token : SupervisorToken) : Except IoError Unit × SupervisorParentSession :=
  if self.state ≠ .awaitHello ∨ frame.kind ≠ .hello ∨ frame.requestId ≠ 0 ∨
      !token.authenticate frame.payload then
    (.error (invalidData "invalid supervisor HELLO"), self)
  else
    (.ok (), { self with state := .awaitAccepted })

/-- `send_request`. -/
def sendRequest (self : SupervisorParentSession) :
    Except IoError Unit × SupervisorParentSession :=
  if self.state = .awaitAccepted ∧ !self.requestSent then
    (.ok (), { self with requestSent := true })
  else
    (.error (invalidData "supervisor REQUEST is out of order"), self)

/-- `send_cancel`: `Ok(true)` asks the caller to write a CANCEL frame. -/
def sendCancel (self : SupervisorParentSession) (reason : CancelReason) :
    Except IoError Bool × SupervisorParentSession :=
  match self.cancelReason with
  | some previous =>
      if previous ≠ reason then
        (.error (invalidData "conflicting supervisor cancellation reason"), self)
      else if self.state = .terminal ∨ self.cancelSent then
        (.ok false, self)
      else
        (.ok true, { self with cancelSent := true })
  | none =>
      let record (state : SupervisorParentState) :
          Except IoError Bool × SupervisorParentSession :=
        (.ok true, { self with state, cancelReason := some reason, cancelSent := true })
      match self.state with
      | .awaitAccepted => record .cancellingBeforeAccepted
      | .accepted => record .cancellingBeforeStart
      | .awaitStarted | .started => record .cancelling
      | .cancellingBeforeAccepted => record .cancellingBeforeAccepted
      | .cancellingBeforeStart => record .cancellingBeforeStart
      | .cancelling => record .cancelling
      -- A late cancellation cannot change a terminal result.
      | .terminal => (.ok false, self)
      | .awaitHello => (.error (invalidData "supervisor CANCEL is out of order"), self)

/-- `authorize_start`; `requested` is what `cancellation.requested_reason()` reads. -/
def authorizeStart (self : SupervisorParentSession) (requested : Option CancelReason) :
    Except IoError Bool × SupervisorParentSession :=
  if self.state ≠ .accepted then
    (.error (invalidData "supervisor START is out of order"), self)
  else
    match requested with
    | some reason =>
        (.ok false, { self with state := .cancellingBeforeStart, cancelReason := some reason })
    | none => (.ok true, { self with state := .awaitStarted })

/-- The condition under which `authorize_start` authorises START. -/
def authorizes (self : SupervisorParentSession) (requested : Option CancelReason) : Bool :=
  self.state = .accepted && requested.isNone

theorem authorizeStart_eq_true {self : SupervisorParentSession}
    {requested : Option CancelReason} :
    (self.authorizeStart requested).1 = .ok true ↔ self.authorizes requested = true := by
  by_cases h : self.state = .accepted <;> cases requested <;>
    simp [authorizeStart, authorizes, h]

/-- The part of `receive_child_frame` that handles a decoded TERMINAL of valid
shape. -/
def receiveTerminal (self : SupervisorParentSession) (terminal : SupervisorTerminal) :
    Except IoError SupervisorFrameEvent × SupervisorParentSession :=
  match self.terminal with
  | some previous =>
      if previous = terminal then
        (.ok .terminal, self)
      else
        (.error (invalidData "conflicting supervisor TERMINAL frames"), self)
  | none =>
      let store : Except IoError SupervisorFrameEvent × SupervisorParentSession :=
        (.ok .terminal, { self with terminal := some terminal, state := .terminal })
      match self.state with
      | .cancellingBeforeStart =>
          match self.cancelReason with
          | some reason =>
              if terminal.outcome ≠ preStartOutcome reason then
                (.error (invalidData
                  "pre-start supervisor cancellation has an invalid outcome"), self)
              else
                store
          | none =>
              (.error (invalidData "pre-start supervisor cancellation has no reason"), self)
      | .started | .cancelling => store
      | _ => (.error (invalidData "supervisor TERMINAL is out of order"), self)

/-- `receive_child_frame`. -/
def receiveChildFrame (json : SerdeJson SupervisorTerminal) (self : SupervisorParentSession)
    (frame : SupervisorFrame) :
    Except IoError SupervisorFrameEvent × SupervisorParentSession :=
  if frame.requestId ≠ self.requestId ∧ ¬(frame.kind = .hello ∧ frame.requestId = 0) then
    (.error (invalidData "supervisor request ID mismatch"), self)
  else
    match frame.kind, frame.payload with
    | .accepted, [] =>
        match self.state with
        | .awaitAccepted => (.ok .accepted, { self with state := .accepted })
        | .cancellingBeforeAccepted =>
            (.ok .accepted, { self with state := .cancellingBeforeStart })
        | _ => (.error (invalidData "duplicate or out-of-order supervisor ACCEPTED"), self)
    | .started, [] =>
        match self.state with
        | .awaitStarted =>
            (.ok .started, { self with startedReceived := true, state := .started })
        | .cancelling =>
            -- Cancellation after START authorisation is post-start even while
            -- STARTED is still in flight.
            if !self.startedReceived then
              (.ok .started, { self with startedReceived := true })
            else
              (.error (invalidData "duplicate or out-of-order supervisor STARTED"), self)
        | _ => (.error (invalidData "duplicate or out-of-order supervisor STARTED"), self)
    | .terminal, payload =>
        match decodePayload json payload with
        | .error error => (.error error, self)
        | .ok terminal =>
            match validateSupervisorTerminalShape terminal with
            | .error error => (.error error, self)
            | .ok () => self.receiveTerminal terminal
    | _, _ => (.error (invalidData "invalid supervisor child frame"), self)

end SupervisorParentSession

/-! ### Everything an operation can do -/

open SupervisorParentSession

/-- The changes an operation can make to a parent session, each with its guard.
The index is set on the one change that authorises START. -/
inductive ParentChange (s : SupervisorParentSession) :
    Bool → SupervisorParentSession → Prop
  | unchanged : ParentChange s false s
  | hello : s.state = .awaitHello →
      ParentChange s false { s with state := .awaitAccepted }
  | request : s.state = .awaitAccepted → s.requestSent = false →
      ParentChange s false { s with requestSent := true }
  /-- CANCEL is sent for a reason recorded earlier, by `authorize_start`. -/
  | cancelResent {reason : CancelReason} : s.cancelReason = some reason →
      s.state ≠ .terminal → s.cancelSent = false →
      ParentChange s false { s with cancelSent := true }
  | cancelBeforeAccepted {reason : CancelReason} : s.cancelReason = none →
      s.state = .awaitAccepted ∨ s.state = .cancellingBeforeAccepted →
      ParentChange s false { s with
        state := .cancellingBeforeAccepted, cancelReason := some reason, cancelSent := true }
  | cancelBeforeStart {reason : CancelReason} : s.cancelReason = none →
      s.state = .accepted ∨ s.state = .cancellingBeforeStart →
      ParentChange s false { s with
        state := .cancellingBeforeStart, cancelReason := some reason, cancelSent := true }
  | cancelAfterStart {reason : CancelReason} : s.cancelReason = none →
      s.state = .awaitStarted ∨ s.state = .started ∨ s.state = .cancelling →
      ParentChange s false { s with
        state := .cancelling, cancelReason := some reason, cancelSent := true }
  | startRefused {reason : CancelReason} : s.state = .accepted →
      ParentChange s false { s with
        state := .cancellingBeforeStart, cancelReason := some reason }
  | startAuthorized : s.state = .accepted →
      ParentChange s true { s with state := .awaitStarted }
  | accepted : s.state = .awaitAccepted →
      ParentChange s false { s with state := .accepted }
  | acceptedCancelling : s.state = .cancellingBeforeAccepted →
      ParentChange s false { s with state := .cancellingBeforeStart }
  | started : s.state = .awaitStarted →
      ParentChange s false { s with startedReceived := true, state := .started }
  | startedCancelling : s.state = .cancelling → s.startedReceived = false →
      ParentChange s false { s with startedReceived := true }
  | terminalBeforeStart {terminal : SupervisorTerminal} {reason : CancelReason} :
      validateSupervisorTerminalShape terminal = .ok () → s.terminal = none →
      s.state = .cancellingBeforeStart → s.cancelReason = some reason →
      terminal.outcome = preStartOutcome reason →
      ParentChange s false { s with terminal := some terminal, state := .terminal }
  | terminalAfterStart {terminal : SupervisorTerminal} :
      validateSupervisorTerminalShape terminal = .ok () → s.terminal = none →
      s.state = .started ∨ s.state = .cancelling →
      ParentChange s false { s with terminal := some terminal, state := .terminal }

variable (s : SupervisorParentSession)

theorem acceptHello_change (frame : SupervisorFrame) (token : SupervisorToken) :
    ParentChange s false (s.acceptHello frame token).2 := by
  unfold acceptHello
  split
  · exact .unchanged
  · next h => exact .hello (by simpa using (not_or.mp h).1)

theorem sendRequest_change : ParentChange s false s.sendRequest.2 := by
  unfold sendRequest
  split
  · next h => exact .request h.1 (by simpa using h.2)
  · exact .unchanged

theorem sendCancel_change (reason : CancelReason) :
    ParentChange s false (s.sendCancel reason).2 := by
  unfold sendCancel
  split
  · next previous hprev =>
    split
    · exact .unchanged
    · split
      · exact .unchanged
      · next h =>
        obtain ⟨hstate, hsent⟩ := not_or.mp h
        exact .cancelResent hprev hstate (by simpa using hsent)
  · next hnone =>
    split
    · next h => exact .cancelBeforeAccepted hnone (.inl h)
    · next h => exact .cancelBeforeStart hnone (.inl h)
    · next h => exact .cancelAfterStart hnone (.inl h)
    · next h => exact .cancelAfterStart hnone (.inr (.inl h))
    · next h => exact .cancelBeforeAccepted hnone (.inr h)
    · next h => exact .cancelBeforeStart hnone (.inr h)
    · next h => exact .cancelAfterStart hnone (.inr (.inr h))
    · exact .unchanged
    · exact .unchanged

theorem authorizeStart_change (requested : Option CancelReason) :
    ParentChange s (s.authorizes requested) (s.authorizeStart requested).2 := by
  by_cases h : s.state = .accepted
  · cases requested with
    | some reason => simpa [authorizeStart, authorizes, h] using .startRefused h
    | none => simpa [authorizeStart, authorizes, h] using .startAuthorized h
  · simpa [authorizeStart, authorizes, h] using .unchanged

theorem receiveTerminal_change {terminal : SupervisorTerminal}
    (shape : validateSupervisorTerminalShape terminal = .ok ()) :
    ParentChange s false (s.receiveTerminal terminal).2 := by
  unfold receiveTerminal
  split
  · split <;> exact .unchanged
  · next hnone =>
    split
    · next hstate =>
      split
      · next reason hreason =>
        split
        · exact .unchanged
        · next houtcome =>
          exact .terminalBeforeStart shape hnone hstate hreason (by simpa using houtcome)
      · exact .unchanged
    · next h => exact .terminalAfterStart shape hnone (.inl h)
    · next h => exact .terminalAfterStart shape hnone (.inr h)
    · exact .unchanged

theorem receiveChildFrame_change (json : SerdeJson SupervisorTerminal)
    (frame : SupervisorFrame) :
    ParentChange s false (s.receiveChildFrame json frame).2 := by
  unfold receiveChildFrame
  split
  · exact .unchanged
  · split
    · split
      · next h => exact .accepted h
      · next h => exact .acceptedCancelling h
      · exact .unchanged
    · split
      · next h => exact .started h
      · next h =>
        split
        · next hs => exact .startedCancelling h (by simpa using hs)
        · exact .unchanged
      · exact .unchanged
    · split
      · exact .unchanged
      · split
        · exact .unchanged
        · next shape => exact receiveTerminal_change s shape
    · exact .unchanged

end Libdeno.Supervisor
