import Libdeno.Library.Channel
import Libdeno.Library.Transition
import Libdeno.Supervisor.ChildSession
import Libdeno.Supervisor.TerminalMapping

/-!
# Libdeno.Supervisor.Drivers

The honest drivers of a supervised run as one transition system:

* the parent's main thread (`drive_supervisor_session` and the mapping behind it),
  which is also the terminal reader;
* the parent's control worker (`supervisor_control_loop`);
* the child's main thread (`run_supervisor_child`);
* the child's control reader (`start_supervisor_child_control`);
* an environment that moves the clock, may record a cancellation at any moment, and
  lets the child's runtime cancel itself.

The parties share two FIFO channels of frames and, on each side, a cancellation
cell. Every lock section, atomic access, read and write is a step of its own. A
read may fail at any time. A failed write may have left the whole frame on the
wire, as `writeFrameUntil_spec` says. Receiving a frame and handing it to the
session is one step: nobody else looks at the frame in between.

Unauthenticated peers are dropped before a session exists; they leave no trace in
this state.
-/

namespace Libdeno.Supervisor

open SupervisorParentSession

/-- What a run is given: the serialiser at its three types, the token, the encoded
REQUEST, the deadline and the reason reported when none was recorded. -/
structure DriverEnv (Request : Type) where
  terminals : SerdeJson SupervisorTerminal
  reasons : SerdeJson CancelReason
  requests : SerdeJson Request
  token : SupervisorToken
  requestPayload : List UInt8
  deadline : Option Nat
  defaultReason : CancelReason

/-! ### Where each thread stands -/

/-- The parent's main thread. From `duplicates` on it carries the terminal, from
`closing` on also the answer of `cancellation_before_terminal`. -/
inductive MainPc
  | handshake
  | sendRequest
  | writeRequest (frame : SupervisorFrame)
  | readAccepted
  | checkDue
  | storeDeadline
  | authorize
  | writeStart
  | spawnWorker
  | readReason
  | sendCancel (reason : CancelReason)
  | writeCancel (frame : SupervisorFrame)
  | reading
  | duplicates (terminal : SupervisorTerminal)
  | readCancellation (terminal : SupervisorTerminal)
  | closing (terminal : SupervisorTerminal) (recorded : Option CancelReason)
  | stopWorker (terminal : SupervisorTerminal) (recorded : Option CancelReason)
  | joinWorker (terminal : SupervisorTerminal) (recorded : Option CancelReason)
  | reaping (terminal : SupervisorTerminal) (recorded : Option CancelReason)
  | mapped (result : Except LibdenoError RunOutput)
  | failing
  | storeDeadlineFailing
  | joinFailing
  | failed

/-- The parent's control worker; `absent` until it is spawned. -/
inductive WorkerPc
  | absent
  | poll
  | checkSeen
  | checkRequested
  | storeDeadline
  | recheckSeen
  | readReason
  | sendCancel (reason : CancelReason)
  | writeCancel (frame : SupervisorFrame)
  | grace
  | done
  deriving DecidableEq

/-- The child's main thread. -/
inductive ChildPc
  | writeHello
  | readRequest
  | writeAccepted
  | readNext
  | startControl
  | writeStarted
  | running
  | stopControl (result : Except LibdenoError RunOutput)
  | joinControl (result : Except LibdenoError RunOutput)
  | decide (result : Except LibdenoError RunOutput)
  | exiting (terminal : SupervisorTerminal)
  | writeTerminal (terminal : SupervisorTerminal) (frame : SupervisorFrame)
  | exited (code : Int32)

/-- The child's control reader; `absent` until START was received. -/
inductive ControlPc
  | absent
  | waiting
  | storeRequested
  | failing
  | storeFailing
  | done
  deriving DecidableEq

/-- The joint state. The fields from `startDecision` on are history variables: what
`authorize_start` answered, whether the child's session reached `Started`, the
TERMINAL the parent stored with the reason recorded by then, and whether a child's
frame was rejected, a `send_cancel` failed or a write failed. -/
structure Parties where
  now : Nat
  context : CancellationContext
  session : SupervisorParentSession
  child : SupervisorChildSession
  childContext : CancellationContext
  toChild : Channel SupervisorFrame
  toParent : Channel SupervisorFrame
  main : MainPc
  worker : WorkerPc
  childMain : ChildPc
  control : ControlPc
  stop : Bool
  terminalSeen : Bool
  childStop : Bool
  startDecision : Option Bool
  startedReached : Bool
  receivedTerminal : Option (SupervisorTerminal × Option CancelReason)
  rejected : Bool
  cancelRejected : Bool
  writeFailed : Bool

/-- The parties before the first step. -/
def Parties.initial : Parties where
  now := 0
  context := .new
  session := .new supervisorRequestId
  child := .new
  childContext := .new
  toChild := .empty
  toParent := .empty
  main := .handshake
  worker := .absent
  childMain := .writeHello
  control := .absent
  stop := false
  terminalSeen := false
  childStop := false
  startDecision := none
  startedReached := false
  receivedTerminal := none
  rejected := false
  cancelRejected := false
  writeFailed := false

section Steps

variable {Request : Type} (env : DriverEnv Request) (s : Parties)

/-- The execution deadline has passed. -/
def Parties.due : Bool := env.deadline.any (· ≤ s.now)

/-- `cancellation.reason()` on the parent's side. -/
def Parties.reason : CancelReason :=
  SupervisorCancellation.reason { context := s.context, defaultReason := env.defaultReason }

/-- `cancellation.reason()` on the child's side. -/
def Parties.childReason : CancelReason :=
  SupervisorCancellation.reason { context := s.childContext, defaultReason := .user }

/-- The child's session after one of its operations. -/
def Parties.withChild (child : SupervisorChildSession) : Parties :=
  { s with child, startedReached := s.startedReached || child.state = .started }

/-! ### Writing a frame -/

/-- What becomes of a write: it succeeds, or fails with or without the whole frame
on the wire. A frame cut short is never received, so it is not sent at all here. -/
inductive WriteResult
  | sent
  | failedAfter
  | failedBefore
  deriving DecidableEq

namespace WriteResult

def ok (result : WriteResult) : Bool := result = .sent

def deliver (result : WriteResult) (channel : Channel SupervisorFrame)
    (frame : SupervisorFrame) : Channel SupervisorFrame :=
  match result with
  | .sent | .failedAfter => channel.push frame
  | .failedBefore => channel

end WriteResult

/-! ### The parent's main thread -/

/-- Where the main thread reads, accepts or spawns, and so may fail. -/
def MainPc.mayFail : MainPc → Bool
  | .handshake | .readAccepted | .spawnWorker | .reading | .duplicates _ => true
  | _ => false

/-- Where a frame of the child is handed to the session. -/
def MainPc.receives : MainPc → Bool
  | .readAccepted | .reading | .duplicates _ => true
  | _ => false

/-- The steps of `drive_supervisor_session` and of the mapping after it. -/
inductive MainStep : Parties → Prop
  /-- HELLO from a peer that proves the token. -/
  | hello {frame : SupervisorFrame} {toParent : Channel SupervisorFrame}
      {session : SupervisorParentSession} :
      s.main = .handshake → s.toParent.pop = some (frame, toParent) →
      env.token.authenticate frame.payload = true → frame.kind = .hello →
      frame.requestId = 0 → s.session.acceptHello frame env.token = (.ok (), session) →
      MainStep { s with toParent, session, main := .sendRequest }
  | helloRefused {frame : SupervisorFrame} {toParent : Channel SupervisorFrame} {e : IoError} :
      s.main = .handshake → s.toParent.pop = some (frame, toParent) →
      env.token.authenticate frame.payload = true → frame.kind = .hello →
      frame.requestId = 0 → (s.session.acceptHello frame env.token).1 = .error e →
      MainStep { s with toParent, main := .failing }
  | sendRequest {frame : SupervisorFrame} {session : SupervisorParentSession} :
      s.main = .sendRequest →
      SupervisorFrame.new .request supervisorRequestId env.requestPayload = .ok frame →
      s.session.sendRequest = (.ok (), session) →
      MainStep { s with session, main := .writeRequest frame }
  | sendRequestFails {e : IoError} :
      s.main = .sendRequest →
      SupervisorFrame.new .request supervisorRequestId env.requestPayload = .error e ∨
        s.session.sendRequest.1 = .error e →
      MainStep { s with main := .failing }
  | writeRequest {frame : SupervisorFrame} (result : WriteResult) :
      s.main = .writeRequest frame →
      MainStep { s with
        toChild := result.deliver s.toChild frame
        writeFailed := s.writeFailed || !result.ok
        main := if result.ok then .readAccepted else .failing }
  | accepted {frame : SupervisorFrame} {toParent : Channel SupervisorFrame}
      {session : SupervisorParentSession} :
      s.main = .readAccepted → s.toParent.pop = some (frame, toParent) →
      s.session.receiveChildFrame env.terminals frame = (.ok .accepted, session) →
      MainStep { s with toParent, session, main := .checkDue }
  /-- `cancellation_reason_if_due` finds a recorded reason or time left. -/
  | notDue :
      s.main = .checkDue → s.context.reason ≠ none ∨ s.due env = false →
      MainStep { s with main := .authorize }
  | due :
      s.main = .checkDue → s.context.reason = none → s.due env = true →
      MainStep { s with context := s.context.insertReason .deadline, main := .storeDeadline }
  | storeDeadline :
      s.main = .storeDeadline →
      MainStep { s with context := s.context.storeRequested, main := .authorize }
  | startAuthorized {session : SupervisorParentSession} :
      s.main = .authorize → s.session.authorizeStart s.context.reason = (.ok true, session) →
      MainStep { s with session, startDecision := some true, main := .writeStart }
  | startRefused {session : SupervisorParentSession} :
      s.main = .authorize → s.session.authorizeStart s.context.reason = (.ok false, session) →
      MainStep { s with session, startDecision := some false, main := .readReason }
  | authorizeFails {e : IoError} :
      s.main = .authorize → (s.session.authorizeStart s.context.reason).1 = .error e →
      MainStep { s with main := .failing }
  | writeStart {frame : SupervisorFrame} (result : WriteResult) :
      s.main = .writeStart → SupervisorFrame.new .start supervisorRequestId [] = .ok frame →
      MainStep { s with
        toChild := result.deliver s.toChild frame
        writeFailed := s.writeFailed || !result.ok
        main := if result.ok then .spawnWorker else .failing }
  | spawnWorker :
      s.main = .spawnWorker → MainStep { s with worker := .poll, main := .reading }
  | readReason :
      s.main = .readReason → MainStep { s with main := .sendCancel (s.reason env) }
  /-- `send_supervisor_cancel` before START. -/
  | sendCancel {reason : CancelReason} {session : SupervisorParentSession}
      {payload : List UInt8} {frame : SupervisorFrame} :
      s.main = .sendCancel reason → s.session.sendCancel reason = (.ok true, session) →
      encodePayload env.reasons reason = .ok payload →
      SupervisorFrame.new .cancel supervisorRequestId payload = .ok frame →
      MainStep { s with session, main := .writeCancel frame }
  | sendCancelUnencodable {reason : CancelReason} {session : SupervisorParentSession}
      {e : IoError} :
      s.main = .sendCancel reason → s.session.sendCancel reason = (.ok true, session) →
      encodePayload env.reasons reason = .error e →
      MainStep { s with session, main := .failing }
  | sendCancelSkipped {reason : CancelReason} {session : SupervisorParentSession} :
      s.main = .sendCancel reason → s.session.sendCancel reason = (.ok false, session) →
      MainStep { s with session, main := .reading }
  | sendCancelRejected {reason : CancelReason} {session : SupervisorParentSession}
      {e : IoError} :
      s.main = .sendCancel reason → s.session.sendCancel reason = (.error e, session) →
      MainStep { s with session, cancelRejected := true, main := .failing }
  | writeCancel {frame : SupervisorFrame} (result : WriteResult) :
      s.main = .writeCancel frame →
      MainStep { s with
        toChild := result.deliver s.toChild frame
        writeFailed := s.writeFailed || !result.ok
        main := if result.ok then .reading else .failing }
  /-- The terminal reader sees ACCEPTED or STARTED and reads on. -/
  | readOn {frame : SupervisorFrame} {toParent : Channel SupervisorFrame}
      {session : SupervisorParentSession} {event : SupervisorFrameEvent} :
      s.main = .reading → s.toParent.pop = some (frame, toParent) →
      s.session.receiveChildFrame env.terminals frame = (.ok event, session) →
      event ≠ .terminal →
      MainStep { s with toParent, session }
  | readTerminal {frame : SupervisorFrame} {toParent : Channel SupervisorFrame}
      {session : SupervisorParentSession} {terminal : SupervisorTerminal} :
      s.main = .reading → s.toParent.pop = some (frame, toParent) →
      s.session.receiveChildFrame env.terminals frame = (.ok .terminal, session) →
      session.terminal = some terminal →
      MainStep { s with
        toParent, session
        receivedTerminal := some (terminal, s.session.cancelReason)
        main := .duplicates terminal }
  | duplicate {frame : SupervisorFrame} {toParent : Channel SupervisorFrame}
      {session : SupervisorParentSession} {terminal : SupervisorTerminal} :
      s.main = .duplicates terminal → s.toParent.pop = some (frame, toParent) →
      s.session.receiveChildFrame env.terminals frame = (.ok .terminal, session) →
      MainStep { s with toParent, session }
  /-- A frame the session rejects, or answers with an event out of place. -/
  | rejects {frame : SupervisorFrame} {toParent : Channel SupervisorFrame}
      {session : SupervisorParentSession} {answer : Except IoError SupervisorFrameEvent} :
      s.main.receives = true → s.toParent.pop = some (frame, toParent) →
      s.session.receiveChildFrame env.terminals frame = (answer, session) →
      (s.main = .readAccepted ∧ answer ≠ .ok .accepted ∨
        s.main = .reading ∧ (∃ e, answer = .error e) ∨
        (∃ terminal, s.main = .duplicates terminal) ∧ answer ≠ .ok .terminal) →
      MainStep { s with toParent, session, rejected := true, main := .failing }
  | noDuplicate {terminal : SupervisorTerminal} :
      s.main = .duplicates terminal → MainStep { s with main := .readCancellation terminal }
  | readCancellation {terminal : SupervisorTerminal} :
      s.main = .readCancellation terminal →
      MainStep { s with main := .closing terminal s.session.cancellationBeforeTerminal }
  | closeAlone {terminal : SupervisorTerminal} {recorded : Option CancelReason} :
      s.main = .closing terminal recorded → s.worker = .absent →
      MainStep { s with main := .reaping terminal recorded }
  | markTerminal {terminal : SupervisorTerminal} {recorded : Option CancelReason} :
      s.main = .closing terminal recorded → s.worker ≠ .absent →
      MainStep { s with terminalSeen := true, main := .stopWorker terminal recorded }
  | stopWorker {terminal : SupervisorTerminal} {recorded : Option CancelReason} :
      s.main = .stopWorker terminal recorded →
      MainStep { s with stop := true, main := .joinWorker terminal recorded }
  | joinWorker {terminal : SupervisorTerminal} {recorded : Option CancelReason} :
      s.main = .joinWorker terminal recorded → s.worker = .done →
      MainStep { s with main := .reaping terminal recorded }
  /-- `reap_supervisor_child` finds the child's exit status. -/
  | reap {terminal : SupervisorTerminal} {recorded : Option CancelReason} {code : Int32} :
      s.main = .reaping terminal recorded → s.childMain = .exited code →
      MainStep { s with
        main :=
          .mapped (mapSupervisorTerminalWithCancellation terminal (exitStatus code) false
            recorded) }
  /-- The child outlives its exit grace and is killed. -/
  | kill {terminal : SupervisorTerminal} {recorded : Option CancelReason}
      (status : Option Int) :
      s.main = .reaping terminal recorded →
      MainStep { s with
        main :=
          .mapped (mapSupervisorTerminalWithCancellation terminal status true recorded) }
  /-- A read, the handshake or the spawn of the worker fails. -/
  | fails : s.main.mayFail = true → MainStep { s with main := .failing }
  /-- A timeout past the deadline is recorded before it is returned. -/
  | failingDue :
      s.main = .failing → s.context.reason = none → s.due env = true →
      MainStep { s with
        context := s.context.insertReason .deadline, main := .storeDeadlineFailing }
  | storeDeadlineFailing :
      s.main = .storeDeadlineFailing →
      MainStep { s with context := s.context.storeRequested, main := .failing }
  | failAlone : s.main = .failing → s.worker = .absent → MainStep { s with main := .failed }
  /-- A requested cancellation is left to the worker; otherwise it is stopped. -/
  | failStopping :
      s.main = .failing → s.worker ≠ .absent →
      MainStep { s with stop := s.stop || !s.context.isRequested, main := .joinFailing }
  | joinFailing :
      s.main = .joinFailing → s.worker = .done → MainStep { s with main := .failed }

/-! ### The parent's control worker -/

/-- The steps of `supervisor_control_loop`. -/
inductive WorkerStep : Parties → Prop
  | poll :
      s.worker = .poll →
      WorkerStep { s with worker := if s.stop then .done else .checkSeen }
  | checkSeen :
      s.worker = .checkSeen →
      WorkerStep { s with worker := if s.terminalSeen then .done else .checkRequested }
  | requested :
      s.worker = .checkRequested → s.context.isRequested = true →
      WorkerStep { s with worker := .recheckSeen }
  | idle :
      s.worker = .checkRequested → s.context.isRequested = false → s.due env = false →
      WorkerStep { s with worker := .poll }
  | due :
      s.worker = .checkRequested → s.context.isRequested = false → s.due env = true →
      WorkerStep { s with
        context := s.context.insertReason .deadline, worker := .storeDeadline }
  | storeDeadline :
      s.worker = .storeDeadline →
      WorkerStep { s with context := s.context.storeRequested, worker := .recheckSeen }
  | recheckSeen :
      s.worker = .recheckSeen →
      WorkerStep { s with worker := if s.terminalSeen then .done else .readReason }
  | readReason :
      s.worker = .readReason → WorkerStep { s with worker := .sendCancel (s.reason env) }
  | sendCancel {reason : CancelReason} {session : SupervisorParentSession}
      {payload : List UInt8} {frame : SupervisorFrame} :
      s.worker = .sendCancel reason → s.session.sendCancel reason = (.ok true, session) →
      encodePayload env.reasons reason = .ok payload →
      SupervisorFrame.new .cancel supervisorRequestId payload = .ok frame →
      WorkerStep { s with session, worker := .writeCancel frame }
  | sendCancelUnencodable {reason : CancelReason} {session : SupervisorParentSession}
      {e : IoError} :
      s.worker = .sendCancel reason → s.session.sendCancel reason = (.ok true, session) →
      encodePayload env.reasons reason = .error e →
      WorkerStep { s with session, worker := .done }
  | sendCancelSkipped {reason : CancelReason} {session : SupervisorParentSession} :
      s.worker = .sendCancel reason → s.session.sendCancel reason = (.ok false, session) →
      WorkerStep { s with session, worker := .grace }
  | sendCancelRejected {reason : CancelReason} {session : SupervisorParentSession}
      {e : IoError} :
      s.worker = .sendCancel reason → s.session.sendCancel reason = (.error e, session) →
      WorkerStep { s with session, cancelRejected := true, worker := .done }
  | writeCancel {frame : SupervisorFrame} (result : WriteResult) :
      s.worker = .writeCancel frame →
      WorkerStep { s with
        toChild := result.deliver s.toChild frame
        writeFailed := s.writeFailed || !result.ok
        worker := if result.ok then .grace else .done }
  /-- The grace ends: by the stop signal, the terminal, or its deadline, after
  which the stream is shut down. -/
  | graceEnds : s.worker = .grace → WorkerStep { s with worker := .done }

/-! ### The child -/

/-- Where the child reads or spawns, and so may fail. -/
def ChildPc.mayFail : ChildPc → Bool
  | .readRequest | .readNext | .startControl => true
  | _ => false

/-- The steps of `run_supervisor_child`. -/
inductive ChildStep : Parties → Prop
  | writeHello {frame : SupervisorFrame} (result : WriteResult) :
      s.childMain = .writeHello → SupervisorFrame.new .hello 0 env.token.bytes = .ok frame →
      ChildStep { s with
        toParent := result.deliver s.toParent frame
        writeFailed := s.writeFailed || !result.ok
        childMain := if result.ok then .readRequest else .exited 1 }
  | request {frame : SupervisorFrame} {toChild : Channel SupervisorFrame}
      {child : SupervisorChildSession} {event : Option SupervisorFrameEvent}
      {request : Request} :
      s.childMain = .readRequest → s.toChild.pop = some (frame, toChild) →
      s.child.receiveParentFrame env.reasons frame = (.ok event, child) →
      decodePayload env.requests frame.payload = .ok request → child.requestId ≠ none →
      ChildStep { s.withChild child with toChild, childMain := .writeAccepted }
  | requestRejected {frame : SupervisorFrame} {toChild : Channel SupervisorFrame}
      {child : SupervisorChildSession} {answer : Except IoError (Option SupervisorFrameEvent)}
      {e : IoError} :
      s.childMain = .readRequest → s.toChild.pop = some (frame, toChild) →
      s.child.receiveParentFrame env.reasons frame = (answer, child) →
      answer = .error e ∨ decodePayload env.requests frame.payload = .error e ∨
        child.requestId = none →
      ChildStep { s.withChild child with toChild, childMain := .exited 1 }
  | writeAccepted {frame : SupervisorFrame} {requestId : UInt64} (result : WriteResult) :
      s.childMain = .writeAccepted → s.child.requestId = some requestId →
      SupervisorFrame.new .accepted requestId [] = .ok frame →
      ChildStep { s with
        toParent := result.deliver s.toParent frame
        writeFailed := s.writeFailed || !result.ok
        childMain := if result.ok then .readNext else .exited 1 }
  /-- CANCEL instead of START. -/
  | cancelled {frame : SupervisorFrame} {toChild : Channel SupervisorFrame}
      {child : SupervisorChildSession} {event : Option SupervisorFrameEvent} :
      s.childMain = .readNext → s.toChild.pop = some (frame, toChild) →
      s.child.receiveParentFrame env.reasons frame = (.ok event, child) →
      frame.kind = .cancel →
      ChildStep { s.withChild child with
        toChild
        childMain := .exiting (preStartTerminal (child.cancelReason.getD .user)) }
  | started {frame : SupervisorFrame} {toChild : Channel SupervisorFrame}
      {child : SupervisorChildSession} :
      s.childMain = .readNext → s.toChild.pop = some (frame, toChild) →
      s.child.receiveParentFrame env.reasons frame = (.ok (some .started), child) →
      frame.kind = .start →
      ChildStep { s.withChild child with toChild, childMain := .startControl }
  | barrierUnsatisfied {frame : SupervisorFrame} {toChild : Channel SupervisorFrame}
      {child : SupervisorChildSession} {answer : Except IoError (Option SupervisorFrameEvent)} :
      s.childMain = .readNext → s.toChild.pop = some (frame, toChild) →
      s.child.receiveParentFrame env.reasons frame = (answer, child) →
      (∃ e, answer = .error e) ∨
        frame.kind ≠ .cancel ∧ (answer ≠ .ok (some .started) ∨ frame.kind ≠ .start) →
      ChildStep { s.withChild child with toChild, childMain := .exited 1 }
  | startControl :
      s.childMain = .startControl →
      ChildStep { s with control := .waiting, childMain := .writeStarted }
  | writeStarted {frame : SupervisorFrame} {requestId : UInt64} (result : WriteResult) :
      s.childMain = .writeStarted → s.child.requestId = some requestId →
      SupervisorFrame.new .started requestId [] = .ok frame →
      ChildStep { s with
        toParent := result.deliver s.toParent frame
        writeFailed := s.writeFailed || !result.ok
        childStop := s.childStop || !result.ok
        childMain := if result.ok then .running else .exited 1 }
  /-- User code ends, with whatever result. -/
  | finish (result : Except LibdenoError RunOutput) :
      s.childMain = .running → ChildStep { s with childMain := .stopControl result }
  | stopControl {result : Except LibdenoError RunOutput} :
      s.childMain = .stopControl result →
      ChildStep { s with childStop := true, childMain := .joinControl result }
  | joinControl {result : Except LibdenoError RunOutput} :
      s.childMain = .joinControl result → s.control = .done →
      ChildStep { s with childMain := .decide result }
  | decide {result : Except LibdenoError RunOutput} :
      s.childMain = .decide result →
      ChildStep { s with
        childMain :=
          .exiting (childTerminal s.childReason s.childContext.isRequested result) }
  /-- `supervisor_child_exit`, up to its write. -/
  | markTerminal {terminal : SupervisorTerminal} {child : SupervisorChildSession}
      {first : Bool} {requestId : UInt64} {payload : List UInt8} {frame : SupervisorFrame} :
      s.childMain = .exiting terminal →
      s.child.markTerminal terminal = (.ok first, child) → child.requestId = some requestId →
      encodePayload env.terminals terminal = .ok payload →
      SupervisorFrame.new .terminal requestId payload = .ok frame →
      ChildStep { s.withChild child with childMain := .writeTerminal terminal frame }
  | markTerminalFails {terminal : SupervisorTerminal} {child : SupervisorChildSession}
      {answer : Except IoError Bool} {e : IoError} :
      s.childMain = .exiting terminal → s.child.markTerminal terminal = (answer, child) →
      answer = .error e ∨ child.requestId = none ∨
        encodePayload env.terminals terminal = .error e →
      ChildStep { s.withChild child with childMain := .exited 1 }
  | writeTerminal {terminal : SupervisorTerminal} {frame : SupervisorFrame}
      (result : WriteResult) :
      s.childMain = .writeTerminal terminal frame →
      ChildStep { s with
        toParent := result.deliver s.toParent frame
        writeFailed := s.writeFailed || !result.ok
        childMain := .exited (if result.ok then terminalExitCode terminal else 1) }
  | fails : s.childMain.mayFail = true → ChildStep { s with childMain := .exited 1 }

/-- The reader's verdict on a frame: a CANCEL of the run whose reason does not
contradict one requested before. -/
def Parties.acceptsControl (frame : SupervisorFrame) (reason : CancelReason) : Prop :=
  frame.kind = .cancel ∧ s.child.requestId = some frame.requestId ∧
    decodePayload env.reasons frame.payload = .ok reason ∧
    ¬(s.childContext.isRequested = true ∧ s.childReason ≠ reason)

/-- The steps of the child's control reader. -/
inductive ControlStep : Parties → Prop
  | cancel {frame : SupervisorFrame} {toChild : Channel SupervisorFrame}
      {reason : CancelReason} :
      s.control = .waiting → s.toChild.pop = some (frame, toChild) →
      s.acceptsControl env frame reason →
      ControlStep { s with
        toChild
        childContext := s.childContext.insertReason reason
        control := .storeRequested }
  | invalid {frame : SupervisorFrame} {toChild : Channel SupervisorFrame} :
      s.control = .waiting → s.toChild.pop = some (frame, toChild) →
      (∀ reason, ¬ s.acceptsControl env frame reason) →
      ControlStep { s with toChild, control := .failing }
  | storeRequested :
      s.control = .storeRequested →
      ControlStep { s with
        childContext := s.childContext.storeRequested, control := .waiting }
  | stopped : s.control = .waiting → s.childStop = true → ControlStep { s with control := .done }
  /-- The stream fails or ends. -/
  | fails : s.control = .waiting → ControlStep { s with control := .failing }
  /-- An error cancels the run. -/
  | failing :
      s.control = .failing →
      ControlStep { s with
        childContext := s.childContext.insertReason .user, control := .storeFailing }
  | storeFailing :
      s.control = .storeFailing →
      ControlStep { s with childContext := s.childContext.storeRequested, control := .done }

/-! ### The environment -/

/-- What happens around the threads: time passes, a canceller makes the two writes
of a request, and the child's runtime requests its own cancellation. -/
inductive EnvironmentStep : Parties → Prop
  | tick (later : Nat) : s.now ≤ later → EnvironmentStep { s with now := later }
  | recordReason (reason : CancelReason) :
      EnvironmentStep { s with context := s.context.insertReason reason }
  | storeRequested :
      s.context.reason ≠ none →
      EnvironmentStep { s with context := s.context.storeRequested }
  | childRecordsReason (reason : CancelReason) :
      s.childMain = .running →
      EnvironmentStep { s with childContext := s.childContext.insertReason reason }
  | childStoresRequested :
      s.childContext.reason ≠ none →
      EnvironmentStep { s with childContext := s.childContext.storeRequested }

end Steps

/-- One step of any party. -/
inductive DriverStep {Request : Type} (env : DriverEnv Request) (s : Parties) : Parties → Prop
  | main {s' : Parties} : MainStep env s s' → DriverStep env s s'
  | worker {s' : Parties} : WorkerStep env s s' → DriverStep env s s'
  | child {s' : Parties} : ChildStep env s s' → DriverStep env s s'
  | control {s' : Parties} : ControlStep env s s' → DriverStep env s s'
  | environment {s' : Parties} : EnvironmentStep s s' → DriverStep env s s'

/-- The states the drivers can reach. -/
def DriverReachable {Request : Type} (env : DriverEnv Request) (s : Parties) : Prop :=
  Transition.Reachable (· = Parties.initial) (DriverStep env) s

end Libdeno.Supervisor
