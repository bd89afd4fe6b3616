import Libdeno.Supervisor.StartBarrier

/-!
# Libdeno.Supervisor.CrossingCancel

CANCEL and TERMINAL crossing in flight. With no failed write, every interleaving of
the honest drivers keeps each side's traffic one of a handful of *logs*
(`ParentLog`, `ChildLog`), whatever has been delivered of it. The invariant
`Crossing` ties both logs, and the log of what the parent has seen, to the
sessions and to where each thread stands; from it the session accepts every frame of
the child, at most one CANCEL is sent, and the mapped result is decided by the
TERMINAL and by the reason recorded before it.
-/

namespace Libdeno.Supervisor

open SupervisorParentSession

/-! ### The traffic of the two sides -/

def helloFrame {Request : Type} (env : DriverEnv Request) : SupervisorFrame :=
  { kind := .hello, requestId := 0, payload := env.token.bytes }

def requestFrame {Request : Type} (env : DriverEnv Request) : SupervisorFrame :=
  { kind := .request, requestId := supervisorRequestId, payload := env.requestPayload }

def startFrame : SupervisorFrame :=
  { kind := .start, requestId := supervisorRequestId, payload := [] }

def cancelFrame (payload : List UInt8) : SupervisorFrame :=
  { kind := .cancel, requestId := supervisorRequestId, payload }

def acceptedFrame : SupervisorFrame :=
  { kind := .accepted, requestId := supervisorRequestId, payload := [] }

def startedFrame : SupervisorFrame :=
  { kind := .started, requestId := supervisorRequestId, payload := [] }

def terminalFrame (payload : List UInt8) : SupervisorFrame :=
  { kind := .terminal, requestId := supervisorRequestId, payload }

/-- Everything the parent may have sent. -/
inductive ParentLog
  | nothing
  | request
  | start
  | startCancel (reason : CancelReason) (payload : List UInt8)
  | cancel (reason : CancelReason) (payload : List UInt8)

/-- Everything the child may have sent; a terminal is early when it answers a CANCEL
that came instead of START. -/
inductive ChildLog
  | nothing
  | hello
  | accepted
  | started
  | terminalEarly (terminal : SupervisorTerminal) (payload : List UInt8)
  | terminal (terminal : SupervisorTerminal) (payload : List UInt8)

section Logs

variable {Request : Type} (env : DriverEnv Request)

def ParentLog.frames : ParentLog → List SupervisorFrame
  | .nothing => []
  | .request => [requestFrame env]
  | .start => [requestFrame env, startFrame]
  | .startCancel _ payload => [requestFrame env, startFrame, cancelFrame payload]
  | .cancel _ payload => [requestFrame env, cancelFrame payload]

def ChildLog.frames : ChildLog → List SupervisorFrame
  | .nothing => []
  | .hello => [helloFrame env]
  | .accepted => [helloFrame env, acceptedFrame]
  | .started => [helloFrame env, acceptedFrame, startedFrame]
  | .terminalEarly _ payload => [helloFrame env, acceptedFrame, terminalFrame payload]
  | .terminal _ payload => [helloFrame env, acceptedFrame, startedFrame, terminalFrame payload]

/-- The frame after `seen`, in the log of everything the child has sent. -/
inductive NextFrame : ChildLog → SupervisorFrame → ChildLog → Prop
  | hello {sent : ChildLog} : NextFrame .nothing (helloFrame env) sent
  | accepted {sent : ChildLog} : NextFrame .hello acceptedFrame sent
  | started {sent : ChildLog} : sent = .started ∨ (∃ t p, sent = .terminal t p) →
      NextFrame .accepted startedFrame sent
  | terminalEarly {t : SupervisorTerminal} {p : List UInt8} :
      NextFrame .accepted (terminalFrame p) (.terminalEarly t p)
  | terminal {t : SupervisorTerminal} {p : List UInt8} :
      NextFrame .started (terminalFrame p) (.terminal t p)

variable {env}

theorem ChildLog.next {seen sent : ChildLog} {frame : SupervisorFrame}
    (h : seen.frames env ++ [frame] <+: sent.frames env) : NextFrame env seen frame sent := by
  cases seen <;> cases sent <;>
    simp only [ChildLog.frames, List.nil_append, List.cons_append, List.cons_prefix_cons,
      List.prefix_nil, List.nil_prefix, reduceCtorEq, and_true, true_and, and_false] at h
  all_goals first
    | subst h; exact .hello
    | subst h; exact .accepted
    | subst h; exact .started (.inl rfl)
    | subst h; exact .started (.inr ⟨_, _, rfl⟩)
    | subst h; exact .terminalEarly
    | subst h; exact .terminal
    | exact absurd h.1 (by simp [terminalFrame, startedFrame])

/-- What the child has received that begins with REQUEST and START was sent by a
parent that authorised START. -/
theorem ParentLog.started_of_received {log : ParentLog} {received : List SupervisorFrame}
    (h : received <+: log.frames env) (started : ReceivedStart received) :
    log = .start ∨ ∃ r p, log = .startCancel r p := by
  obtain ⟨request, start, rest, rfl, -, hkind⟩ := started
  cases log <;>
    simp only [ParentLog.frames, List.cons_prefix_cons, List.prefix_nil, reduceCtorEq,
      and_false] at h
  · exact .inl rfl
  · exact .inr ⟨_, _, rfl⟩
  · rw [h.2.1] at hkind
    cases hkind

/-- A CANCEL right behind the REQUEST was sent by a parent that refused START. -/
theorem ParentLog.cancelled_of_received {log : ParentLog} {request frame : SupervisorFrame}
    {rest : List SupervisorFrame} (h : request :: frame :: rest <+: log.frames env)
    (hkind : frame.kind = .cancel) :
    ∃ r p, log = .cancel r p ∧ request = requestFrame env ∧ frame = cancelFrame p := by
  cases log <;>
    simp only [ParentLog.frames, List.cons_prefix_cons, List.prefix_nil, reduceCtorEq,
      and_false] at h
  · rw [h.2.1] at hkind
    cases hkind
  · rw [h.2.1] at hkind
    cases hkind
  · exact ⟨_, _, rfl, h.1, h.2.1⟩

end Logs

/-! ### The invariant -/

section Invariant

variable {Request : Type} (env : DriverEnv Request) (s : Parties)

/-- A CANCEL frame for the reason the session has recorded. -/
def CancelInHand (frame : SupervisorFrame) : Prop :=
  ∃ reason payload, s.session.cancelReason = some reason ∧
    encodePayload env.reasons reason = .ok payload ∧ frame = cancelFrame payload

/-- The parent's log agrees with the decision, the recorded reason and the worker. -/
def ParentLog.Agrees : ParentLog → Prop
  | .nothing => s.worker = .absent ∧ s.startDecision = none
  | .request => s.worker = .absent
  | .start => s.startDecision = some true
  | .startCancel reason payload =>
      s.startDecision = some true ∧ s.session.cancelReason = some reason ∧
        encodePayload env.reasons reason = .ok payload
  | .cancel reason payload =>
      s.worker = .absent ∧ s.startDecision = some false ∧
        s.session.cancelReason = some reason ∧ encodePayload env.reasons reason = .ok payload

/-- The parent is done with its decision: START or CANCEL is on its way. -/
def ParentLog.settled : ParentLog → Bool
  | .nothing | .request => false
  | .start | .startCancel _ _ | .cancel _ _ => true

/-- The terminal the parent has stored, with the reason recorded by then. -/
def Stored (terminal : SupervisorTerminal) : Prop :=
  s.session.state = .terminal ∧ s.session.terminal = some terminal ∧
    s.receivedTerminal = some (terminal, s.session.cancelReason)

/-- The session after the child's frames in `seen`. -/
def ChildLog.Session : ChildLog → Prop
  | .nothing => s.startDecision = none ∧ s.session = .new supervisorRequestId
  | .hello =>
      s.startDecision = none ∧ s.session.state = .awaitAccepted ∧ s.session.cancelReason = none ∧
        s.session.terminal = none ∧ s.session.startedReceived = false
  | .accepted =>
      s.session.terminal = none ∧ s.session.startedReceived = false ∧
        ((s.startDecision = none ∧ s.session.state = .accepted ∧ s.session.cancelReason = none) ∨
          (s.startDecision = some true ∧
            ((s.session.state = .awaitStarted ∧ s.session.cancelReason = none) ∨
              (s.session.state = .cancelling ∧ s.session.cancelReason ≠ none))) ∨
          (s.startDecision = some false ∧ s.session.state = .cancellingBeforeStart))
  | .started =>
      s.session.terminal = none ∧ s.startDecision = some true ∧
        ((s.session.state = .started ∧ s.session.cancelReason = none) ∨
          (s.session.state = .cancelling ∧ s.session.cancelReason ≠ none))
  | .terminalEarly t _ => s.startDecision = some false ∧ Stored s t
  | .terminal t _ => s.startDecision = some true ∧ Stored s t

/-- The child's log whose last frame is the given TERMINAL. -/
def ChildLog.endsWith (terminal : SupervisorTerminal) : ChildLog → Prop
  | .terminalEarly t _ | .terminal t _ => t = terminal
  | _ => False

/-- Where the parent's main thread stands, against its log and what it has seen. -/
def MainFacts (log : ParentLog) (seen : ChildLog) : Prop :=
  match s.main with
  | .handshake => log = .nothing ∧ seen = .nothing ∧ s.session.cancelSent = false
  | .sendRequest => log = .nothing ∧ seen = .hello ∧ s.session.cancelSent = false
  | .writeRequest frame =>
      log = .nothing ∧ seen = .hello ∧ s.session.cancelSent = false ∧ frame = requestFrame env
  | .readAccepted =>
      log = .request ∧ seen = .hello ∧ s.startDecision = none ∧ s.session.cancelSent = false
  | .checkDue | .storeDeadline | .authorize =>
      log = .request ∧ seen = .accepted ∧ s.startDecision = none ∧ s.session.cancelSent = false
  | .writeStart =>
      log = .request ∧ seen = .accepted ∧ s.startDecision = some true ∧
        s.session.cancelReason = none
  | .spawnWorker =>
      log = .start ∧ seen = .accepted ∧ s.worker = .absent ∧ s.session.cancelReason = none
  | .readReason =>
      log = .request ∧ seen = .accepted ∧ s.startDecision = some false ∧
        s.session.cancelSent = false
  | .sendCancel reason =>
      log = .request ∧ seen = .accepted ∧ s.startDecision = some false ∧
        s.session.cancelSent = false ∧ s.session.cancelReason = some reason
  | .writeCancel frame =>
      log = .request ∧ seen = .accepted ∧ s.startDecision = some false ∧
        CancelInHand env s frame
  | .reading => log.settled = true ∧ (seen = .accepted ∨ seen = .started)
  | .duplicates terminal | .readCancellation terminal => seen.endsWith terminal
  | .closing terminal recorded | .stopWorker terminal recorded
  | .joinWorker terminal recorded | .reaping terminal recorded =>
      seen.endsWith terminal ∧ recorded = s.session.cancelReason
  | .mapped result =>
      ∃ terminal, seen.endsWith terminal ∧ result = reconciled terminal s.session.cancelReason
  | .failing | .storeDeadlineFailing | .joinFailing | .failed => True

/-- Where the control worker stands, against the parent's log. -/
def WorkerFacts (log : ParentLog) : Prop :=
  match s.worker with
  | .absent => ∀ r p, log ≠ .startCancel r p
  | .poll | .checkSeen | .checkRequested | .storeDeadline | .recheckSeen | .readReason
  | .sendCancel _ => log = .start ∧ (s.session.cancelReason = none)
  | .writeCancel frame => log = .start ∧ CancelInHand env s frame
  | .grace | .done => log = .start ∨ ∃ r p, log = .startCancel r p

/-- A TERMINAL of valid shape that answers a CANCEL right behind the REQUEST. -/
def EarlyTerminal (terminal : SupervisorTerminal) : Prop :=
  validateSupervisorTerminalShape terminal = .ok () ∧
    ∃ reason payload rest,
      s.toChild.delivered = requestFrame env :: cancelFrame payload :: rest ∧
      decodePayload env.reasons payload = .ok reason ∧
      terminal.outcome = preStartOutcome reason

/-- A TERMINAL frame that carries the terminal. -/
def TerminalInHand (terminal : SupervisorTerminal) (frame : SupervisorFrame) : Prop :=
  ∃ payload, encodePayload env.terminals terminal = .ok payload ∧ frame = terminalFrame payload

/-- Where the child's main thread stands, against its log and what it has received. -/
def ChildFacts (sent : ChildLog) : Prop :=
  match s.childMain with
  | .writeHello => sent = .nothing
  | .readRequest => sent = .hello
  | .writeAccepted => sent = .hello ∧ s.child.requestId = some supervisorRequestId
  | .readNext => sent = .accepted ∧ s.child.requestId = some supervisorRequestId
  | .startControl | .writeStarted =>
      sent = .accepted ∧ s.child.requestId = some supervisorRequestId
  | .running | .stopControl _ | .joinControl _ | .decide _ =>
      sent = .started ∧ s.child.requestId = some supervisorRequestId
  | .exiting terminal =>
      s.child.requestId = some supervisorRequestId ∧
        ((sent = .accepted ∧ EarlyTerminal env s terminal) ∨
          (sent = .started ∧ validateSupervisorTerminalShape terminal = .ok ()))
  | .writeTerminal terminal frame =>
      TerminalInHand env terminal frame ∧
        ((sent = .accepted ∧ EarlyTerminal env s terminal) ∨
          (sent = .started ∧ validateSupervisorTerminalShape terminal = .ok ()))
  | .exited code => ∀ terminal, sent.endsWith terminal → code = terminalExitCode terminal

/-- The child's log agrees with what the child has received. -/
def ChildLog.Agrees : ChildLog → Prop
  | .nothing | .hello | .accepted => True
  | .started => ReceivedStart s.toChild.delivered
  | .terminalEarly t payload =>
      EarlyTerminal env s t ∧ encodePayload env.terminals t = .ok payload ∧
        ∃ code, s.childMain = .exited code
  | .terminal t payload =>
      ReceivedStart s.toChild.delivered ∧ validateSupervisorTerminalShape t = .ok () ∧
        encodePayload env.terminals t = .ok payload ∧ ∃ code, s.childMain = .exited code

/-- What the parent's side knows, given its log and what it has seen. -/
structure ParentCrossing (log : ParentLog) (seen : ChildLog) : Prop where
  sent : s.toChild.sent = log.frames env
  agrees : log.Agrees env s
  received : s.toParent.delivered = seen.frames env
  session : seen.Session s
  requestId : s.session.requestId = supervisorRequestId
  main : MainFacts env s log seen
  worker : WorkerFacts env s log
  /-- A refusal records the reason of the shared cancellation, for good. -/
  refused : s.startDecision = some false →
    ∃ reason, s.session.cancelReason = some reason ∧ s.context.reason = some reason
  clean : s.rejected = false ∧ s.cancelRejected = false

/-- What the child's side knows, given its log. -/
structure ChildCrossing (log : ChildLog) : Prop where
  sent : s.toParent.sent = log.frames env
  agrees : log.Agrees env s
  main : ChildFacts env s log

end Invariant

/-! ### Steps of the environment and of the child -/

section ChildSide

variable {Request : Type} {env : DriverEnv Request} {s s' : Parties} {log : ParentLog}
  {seen childLog : ChildLog}

/-- A side effect on anything the parent's side does not look at. -/
theorem ParentCrossing.congr (inv : ParentCrossing env s log seen)
    (hsent : s'.toChild.sent = s.toChild.sent)
    (hdelivered : s'.toParent.delivered = s.toParent.delivered)
    (hsame : (s'.session, s'.main, s'.worker, s'.startDecision, s'.receivedTerminal,
      s'.rejected, s'.cancelRejected) = (s.session, s.main, s.worker, s.startDecision,
      s.receivedTerminal, s.rejected, s.cancelRejected))
    (hcontext : ∀ r, s.context.reason = some r → s'.context.reason = some r) :
    ParentCrossing env s' log seen := by
  simp only [Prod.mk.injEq] at hsame
  obtain ⟨hsession, hmain, hworker, hdecision, hreceived, hrejected, hcancel⟩ := hsame
  constructor
  · rw [hsent]
    exact inv.sent
  · have := inv.agrees
    unfold ParentLog.Agrees at this ⊢
    rwa [hworker, hdecision, hsession]
  · rw [hdelivered]
    exact inv.received
  · have := inv.session
    unfold ChildLog.Session Stored at this ⊢
    rwa [hdecision, hsession, hreceived]
  · rw [hsession]
    exact inv.requestId
  · have := inv.main
    unfold MainFacts CancelInHand at this ⊢
    rwa [hmain, hsession, hdecision, hworker]
  · have := inv.worker
    unfold WorkerFacts CancelInHand at this ⊢
    rwa [hworker, hsession]
  · intro h
    obtain ⟨reason, hreason, hctx⟩ := inv.refused (hdecision ▸ h)
    exact ⟨reason, hsession ▸ hreason, hcontext _ hctx⟩
  · rw [hrejected, hcancel]
    exact inv.clean

/-- More frames may reach the child behind those its facts mention. -/
theorem ChildCrossing.congr (inv : ChildCrossing env s childLog)
    (hsent : s'.toParent.sent = s.toParent.sent)
    (hdelivered : ∃ more, s'.toChild.delivered = s.toChild.delivered ++ more)
    (hmain : s'.childMain = s.childMain)
    (hrequestId : s'.child.requestId = s.child.requestId) : ChildCrossing env s' childLog := by
  obtain ⟨more, hmore⟩ := hdelivered
  have early : ∀ terminal, EarlyTerminal env s terminal → EarlyTerminal env s' terminal := by
    rintro terminal ⟨hshape, reason, payload, rest, hdelivered, hdecode, houtcome⟩
    refine ⟨hshape, reason, payload, rest ++ more, ?_, hdecode, houtcome⟩
    rw [hmore, hdelivered, List.cons_append, List.cons_append]
  have start : ReceivedStart s.toChild.delivered → ReceivedStart s'.toChild.delivered := by
    rw [hmore]
    exact fun h => h.append more
  constructor
  · rw [hsent]
    exact inv.sent
  · have agrees := inv.agrees
    unfold ChildLog.Agrees at agrees ⊢
    rw [hmain]
    split
    · trivial
    · trivial
    · trivial
    · exact start agrees
    · exact ⟨early _ agrees.1, agrees.2⟩
    · exact ⟨start agrees.1, agrees.2⟩
  · have main := inv.main
    unfold ChildFacts at main ⊢
    rw [hmain, hrequestId]
    revert main
    cases s.childMain with
    | exiting terminal => exact fun main => ⟨main.1, main.2.imp (And.imp_right (early _)) id⟩
    | writeTerminal terminal frame =>
        exact fun main => ⟨main.1, main.2.imp (And.imp_right (early _)) id⟩
    | _ => exact id

theorem EnvironmentStep.parentCrossing (step : EnvironmentStep s s')
    (inv : ParentCrossing env s log seen) : ParentCrossing env s' log seen := by
  refine inv.congr ?_ ?_ ?_ fun r hr => ?_
  · cases step <;> rfl
  · cases step <;> rfl
  · cases step <;> rfl
  · cases step with
    | recordReason reason => exact CancellationContext.insertReason_reason_of_some hr reason
    | _ => exact hr

theorem EnvironmentStep.childCrossing (step : EnvironmentStep s s')
    (inv : ChildCrossing env s childLog) : ChildCrossing env s' childLog := by
  have same : s'.toParent.sent = s.toParent.sent ∧
      (∃ more, s'.toChild.delivered = s.toChild.delivered ++ more) ∧
      s'.childMain = s.childMain ∧ s'.child.requestId = s.child.requestId := by
    cases step <;> exact ⟨rfl, ⟨[], (List.append_nil _).symm⟩, rfl, rfl⟩
  exact inv.congr same.1 same.2.1 same.2.2.1 same.2.2.2

theorem ControlStep.parentCrossing (step : ControlStep env s s')
    (inv : ParentCrossing env s log seen) : ParentCrossing env s' log seen := by
  refine inv.congr step.toChild_sent ?_ ?_ fun r hr => ?_ <;>
    cases step <;> first | rfl | exact hr

theorem ControlStep.childCrossing (step : ControlStep env s s')
    (inv : ChildCrossing env s childLog) : ChildCrossing env s' childLog := by
  cases step with
  | cancel _ hpop _ => exact inv.congr rfl ⟨_, Channel.delivered_of_pop hpop⟩ rfl rfl
  | invalid _ hpop _ => exact inv.congr rfl ⟨_, Channel.delivered_of_pop hpop⟩ rfl rfl
  | _ => exact inv.congr rfl ⟨[], (List.append_nil _).symm⟩ rfl rfl

theorem ChildStep.parentCrossing (step : ChildStep env s s')
    (inv : ParentCrossing env s log seen) : ParentCrossing env s' log seen := by
  refine inv.congr step.toChild_sent ?_ ?_ fun r hr => ?_ <;>
    cases step <;> first | rfl | exact hr | simp

/-! ### What the child receives and sends -/

theorem eq_of_new {kind : FrameKind} {requestId : UInt64} {payload : List UInt8}
    {frame : SupervisorFrame} (h : SupervisorFrame.new kind requestId payload = .ok frame) :
    frame = { kind, requestId, payload } := by
  unfold SupervisorFrame.new at h
  split at h
  · cases h
  · exact (Except.ok.inj h).symm

theorem receiveParentFrame_requestId {json : SerdeJson CancelReason}
    {c c' : SupervisorChildSession} {frame : SupervisorFrame} {requestId : UInt64}
    {answer : Except IoError (Option SupervisorFrameEvent)}
    (hrun : c.receiveParentFrame json frame = (answer, c'))
    (h : c.requestId = some requestId) : c'.requestId = some requestId := by
  obtain rfl : (c.receiveParentFrame json frame).2 = c' := by rw [hrun]
  unfold SupervisorChildSession.receiveParentFrame
  split
  · exact h
  next hid =>
  have hsame : frame.requestId = requestId := by simpa [h] using hid
  split
  · split
    · exact h
    · simp [hsame]
  · exact h
  · split
    · exact h
    · unfold SupervisorChildSession.receiveCancel
      split
      · split <;> exact h
      · split <;> exact h
  · exact h

/-- An accepted CANCEL leaves its reason in the session. -/
theorem receiveParentFrame_cancel {json : SerdeJson CancelReason}
    {c c' : SupervisorChildSession} {frame : SupervisorFrame}
    {event : Option SupervisorFrameEvent}
    (h : c.receiveParentFrame json frame = (.ok event, c')) (hkind : frame.kind = .cancel) :
    ∃ reason, decodePayload json frame.payload = .ok reason ∧
      c'.cancelReason = some reason := by
  unfold SupervisorChildSession.receiveParentFrame at h
  split at h
  · simp at h
  split at h
  · next hrequest _ => rw [hkind] at hrequest; cases hrequest
  · next hstart _ _ => rw [hkind] at hstart; cases hstart
  · split at h
    · simp at h
    · next reason hdecode =>
      refine ⟨reason, hdecode, ?_⟩
      unfold SupervisorChildSession.receiveCancel at h
      split at h
      · next previous hprevious =>
        split at h
        · simp at h
        · next hsame =>
          obtain ⟨-, rfl⟩ := by simpa using h
          rw [hprevious, not_not.mp hsame]
      · split at h
        · cases h; rfl
        · cases h; rfl
        · cases h; rfl
        · cases h
  · simp at h

theorem markTerminal_requestId {c c' : SupervisorChildSession} {terminal : SupervisorTerminal}
    {answer : Except IoError Bool} (hrun : c.markTerminal terminal = (answer, c')) :
    c'.requestId = c.requestId := by
  obtain rfl : (c.markTerminal terminal).2 = c' := by rw [hrun]
  unfold SupervisorChildSession.markTerminal
  split
  · rfl
  split
  · split <;> rfl
  · split <;> rfl

/-- The first frame of the parent is its REQUEST. -/
theorem ParentLog.first {frame : SupervisorFrame} (h : [frame] <+: log.frames env) :
    frame = requestFrame env := by
  cases log <;>
    simp only [ParentLog.frames, List.cons_prefix_cons, List.prefix_nil, reduceCtorEq,
      List.nil_prefix, and_true] at h
  all_goals exact h

/-- A write that leaves `writeFailed` alone succeeded. -/
theorem WriteResult.sent_of_clean {result : WriteResult} {before : Bool}
    (h : (before || !result.ok) = false) : result = .sent := by
  cases result <;> simp_all [WriteResult.ok]

/-- The child's main thread keeps its side, as long as no write fails. -/
theorem ChildStep.childCrossing (step : ChildStep env s s') (barrier : Barrier s)
    (parent : s.toChild.sent = log.frames env) (inv : ChildCrossing env s childLog)
    (clean : s'.writeFailed = false) : ∃ childLog', ChildCrossing env s' childLog' := by
  obtain ⟨hsent, hagrees, hmainFacts⟩ := inv
  have hreads := barrier.child.reads
  unfold ChildFacts at hmainFacts
  unfold ChildReads at hreads
  -- A thread that gives up leaves its log as it is.
  have exits : ∀ {t : Parties}, t.childMain = .exited 1 → t.toParent = s.toParent →
      childLog = .hello ∨ childLog = .accepted ∨ childLog = .started →
      (∃ more, t.toChild.delivered = s.toChild.delivered ++ more) →
      ∃ childLog', ChildCrossing env t childLog' := by
    rintro t hexit hchannel hlog ⟨more, hmore⟩
    refine ⟨childLog, by rw [hchannel]; exact hsent, ?_, ?_⟩
    · rcases hlog with rfl | rfl | rfl
      · trivial
      · trivial
      · unfold ChildLog.Agrees at hagrees ⊢
        rw [hmore]
        exact ReceivedStart.append hagrees more
    · unfold ChildFacts
      rw [hexit]
      rcases hlog with rfl | rfl | rfl <;> exact fun _ h => h.elim
  cases step with
  | writeHello result hmain hnew =>
      obtain rfl := WriteResult.sent_of_clean clean
      rw [hmain] at hmainFacts
      obtain rfl := hmainFacts
      refine ⟨.hello, ?_, trivial, rfl⟩
      simp only [WriteResult.deliver, Channel.push_sent, hsent, eq_of_new hnew]
      rfl
  | request hmain hpop hrun _ _ =>
      rw [hmain] at hmainFacts hreads
      obtain ⟨hdelivered, hnew⟩ := hreads
      have hstart := Channel.prefix_of_pop hpop
      rw [hdelivered, parent] at hstart
      have hframe := ParentLog.first hstart
      rw [hnew] at hrun
      obtain ⟨-, -, rfl⟩ := receiveParentFrame_new hrun
      refine ⟨.hello, ?_, trivial, rfl, ?_⟩
      · rw [← hmainFacts]
        exact hsent
      · simp [Parties.withChild, hframe, requestFrame]
  | requestRejected hmain hpop _ _ =>
      rw [hmain] at hmainFacts
      exact exits rfl rfl (.inl hmainFacts) ⟨_, Channel.delivered_of_pop hpop⟩
  | writeAccepted result hmain hid hnew =>
      obtain rfl := WriteResult.sent_of_clean clean
      rw [hmain] at hmainFacts
      obtain ⟨rfl, hrequestId⟩ := hmainFacts
      obtain rfl := Option.some.inj (hid.symm.trans hrequestId)
      refine ⟨.accepted, ?_, trivial, rfl, hrequestId⟩
      simp only [WriteResult.deliver, Channel.push_sent, hsent, eq_of_new hnew]
      rfl
  | cancelled hmain hpop hrun hkind =>
      rw [hmain] at hmainFacts hreads
      obtain ⟨rfl, hrequestId⟩ := hmainFacts
      obtain ⟨request, hdelivered, -⟩ := hreads
      have hstart := Channel.prefix_of_pop hpop
      rw [hdelivered, parent, List.singleton_append] at hstart
      obtain ⟨r, p, -, hrequest, hframe⟩ := ParentLog.cancelled_of_received hstart hkind
      obtain ⟨reason, hdecode, hreason⟩ := receiveParentFrame_cancel hrun hkind
      refine ⟨.accepted, hsent, trivial, ?_, .inl ⟨rfl, preStartTerminal_shape _, reason, p, [],
        ?_, ?_, ?_⟩⟩
      · exact receiveParentFrame_requestId hrun hrequestId
      · rw [Channel.delivered_of_pop hpop, hdelivered, List.singleton_append, hrequest, hframe]
      · rw [hframe] at hdecode
        exact hdecode
      · rw [hreason]
        rfl
  | started hmain hpop hrun _ =>
      rw [hmain] at hmainFacts
      obtain ⟨rfl, hrequestId⟩ := hmainFacts
      exact ⟨.accepted, hsent, trivial, rfl, receiveParentFrame_requestId hrun hrequestId⟩
  | barrierUnsatisfied hmain hpop _ _ =>
      rw [hmain] at hmainFacts
      exact exits rfl rfl (.inr (.inl hmainFacts.1)) ⟨_, Channel.delivered_of_pop hpop⟩
  | startControl hmain =>
      rw [hmain] at hmainFacts
      exact ⟨childLog, hsent, by rw [hmainFacts.1]; trivial, hmainFacts⟩
  | writeStarted result hmain hid hnew =>
      obtain rfl := WriteResult.sent_of_clean clean
      rw [hmain] at hmainFacts
      obtain ⟨rfl, hrequestId⟩ := hmainFacts
      obtain rfl := Option.some.inj (hid.symm.trans hrequestId)
      have hstart : ReceivedStart s.toChild.delivered :=
        barrier.child.started (barrier.child.main (by rw [hmain]; rfl))
      refine ⟨.started, ?_, hstart, rfl, hrequestId⟩
      simp only [WriteResult.deliver, Channel.push_sent, hsent, eq_of_new hnew]
      rfl
  | finish result hmain =>
      rw [hmain] at hmainFacts
      obtain ⟨rfl, hrequestId⟩ := hmainFacts
      exact ⟨.started, hsent, hagrees, rfl, hrequestId⟩
  | stopControl hmain =>
      rw [hmain] at hmainFacts
      obtain ⟨rfl, hrequestId⟩ := hmainFacts
      exact ⟨.started, hsent, hagrees, rfl, hrequestId⟩
  | joinControl hmain _ =>
      rw [hmain] at hmainFacts
      obtain ⟨rfl, hrequestId⟩ := hmainFacts
      exact ⟨.started, hsent, hagrees, rfl, hrequestId⟩
  | decide hmain =>
      rw [hmain] at hmainFacts
      obtain ⟨rfl, hrequestId⟩ := hmainFacts
      exact ⟨.started, hsent, hagrees, hrequestId, .inr ⟨rfl, childTerminal_shape _ _ _⟩⟩
  | markTerminal hmain hmark hid hencode hnew =>
      rw [hmain] at hmainFacts
      obtain ⟨hrequestId, hlog⟩ := hmainFacts
      have hkept := markTerminal_requestId hmark
      obtain rfl := Option.some.inj (hid.symm.trans (hkept.trans hrequestId))
      refine ⟨childLog, hsent, ?_, ⟨_, hencode, eq_of_new hnew⟩, hlog⟩
      rcases hlog with ⟨rfl, -⟩ | ⟨rfl, -⟩
      · trivial
      · exact hagrees
  | markTerminalFails hmain _ _ =>
      rw [hmain] at hmainFacts
      obtain ⟨-, hlog⟩ := hmainFacts
      refine exits rfl rfl ?_ ⟨[], (List.append_nil _).symm⟩
      exact hlog.elim (fun h => .inr (.inl h.1)) fun h => .inr (.inr h.1)
  | writeTerminal result hmain =>
      obtain rfl := WriteResult.sent_of_clean clean
      rw [hmain] at hmainFacts
      obtain ⟨⟨payload, hencode, rfl⟩, hlog⟩ := hmainFacts
      rcases hlog with ⟨rfl, hearly⟩ | ⟨rfl, hshape⟩
      · refine ⟨.terminalEarly _ payload, ?_, ⟨hearly, hencode, _, rfl⟩, ?_⟩
        · simp only [WriteResult.deliver, Channel.push_sent, hsent]
          rfl
        · rintro terminal rfl
          rfl
      · refine ⟨.terminal _ payload, ?_, ⟨hagrees, hshape, hencode, _, rfl⟩, ?_⟩
        · simp only [WriteResult.deliver, Channel.push_sent, hsent]
          rfl
        · rintro terminal rfl
          rfl
  | fails hmain =>
      refine exits rfl rfl ?_ ⟨[], (List.append_nil _).symm⟩
      cases hpc : s.childMain <;> simp_all [ChildPc.mayFail]

end ChildSide

/-! ### `send_cancel` where the drivers call it -/

section SendCancel

variable {p : SupervisorParentSession} {reason : CancelReason}

/-- The control worker records its reason after START. -/
theorem sendCancel_afterStart (hreason : p.cancelReason = none)
    (hstate : p.state = .awaitStarted ∨ p.state = .started) :
    p.sendCancel reason = (.ok true, { p with
      state := .cancelling, cancelReason := some reason, cancelSent := true }) := by
  unfold sendCancel
  rw [hreason]
  rcases hstate with hstate | hstate <;> rw [hstate]

/-- A reason recorded by a refusal is sent once. -/
theorem sendCancel_refused (hreason : p.cancelReason = some reason)
    (hsent : p.cancelSent = false) (hstate : p.state ≠ .terminal) :
    p.sendCancel reason = (.ok true, { p with cancelSent := true }) := by
  unfold sendCancel
  rw [hreason]
  simp [hsent, hstate]

/-- After TERMINAL nothing is sent and nothing recorded. -/
theorem sendCancel_terminal (hreason : p.cancelReason = none) (hstate : p.state = .terminal) :
    p.sendCancel reason = (.ok false, p) := by
  unfold sendCancel
  rw [hreason, hstate]

end SendCancel

/-! ### Steps of the control worker -/

section Worker

variable {Request : Type} {env : DriverEnv Request} {s s' : Parties} {log log' : ParentLog}
  {seen : ChildLog}

/-- While the worker runs, the main thread is reading or past it, and its facts
survive what the worker does: its log stays settled, and a reason it records was
recorded before any TERMINAL. -/
theorem MainFacts.transfer (facts : MainFacts env s log seen)
    (hworker : s.worker ≠ .absent) (hlog : log.settled = true) (hmain : s'.main = s.main)
    (hlog' : log'.settled = true)
    (hreason : s'.session.cancelReason = s.session.cancelReason ∨ ∀ t, ¬ seen.endsWith t) :
    MainFacts env s' log' seen := by
  unfold MainFacts at facts ⊢
  rw [hmain]
  cases hpc : s.main <;> simp only [hpc] at facts ⊢
  case reading => exact ⟨hlog', facts.2⟩
  case duplicates => exact facts
  case readCancellation => exact facts
  case spawnWorker => exact absurd facts.2.2.1 hworker
  case closing | stopWorker | joinWorker | reaping =>
    refine ⟨facts.1, ?_⟩
    rcases hreason with h | h
    · rw [h]
      exact facts.2
    · exact absurd facts.1 (h _)
  case mapped =>
    obtain ⟨terminal, hends, hresult⟩ := facts
    rcases hreason with h | h
    · exact ⟨terminal, hends, by rw [h]; exact hresult⟩
    · exact absurd hends (h _)
  all_goals
    rw [facts.1] at hlog
    cases hlog

/-- The worker's log while it runs is settled. -/
theorem WorkerFacts.settled (facts : WorkerFacts env s log) (hworker : s.worker ≠ .absent) :
    log.settled = true := by
  unfold WorkerFacts at facts
  cases hpc : s.worker <;> simp only [hpc] at facts
  case absent => exact absurd hpc hworker
  case grace | done =>
    rcases facts with rfl | ⟨r, p, rfl⟩ <;> rfl
  all_goals
    rw [facts.1]
    rfl

/-- A move of the worker that changes nothing the session or the channel shows. -/
theorem ParentCrossing.workerMoves (inv : ParentCrossing env s log seen)
    (hworker : s.worker ≠ .absent) {pc : WorkerPc} {context : CancellationContext}
    (hcontext : ∀ r, s.context.reason = some r → context.reason = some r)
    (facts : WorkerFacts env { s with worker := pc } log) :
    ParentCrossing env { s with worker := pc, context } log seen where
  sent := inv.sent
  agrees := by
    have agrees := inv.agrees
    have hsettled := inv.worker.settled hworker
    cases log with
    | nothing => cases hsettled
    | request => cases hsettled
    | start => exact agrees
    | startCancel r p => exact agrees
    | cancel r p => exact absurd agrees.1 hworker
  received := inv.received
  session := inv.session
  requestId := inv.requestId
  main := inv.main.transfer hworker (inv.worker.settled hworker) rfl
    (inv.worker.settled hworker) (.inl rfl)
  worker := facts
  refused := fun h => by
    obtain ⟨reason, hreason, hctx⟩ := inv.refused h
    exact ⟨reason, hreason, hcontext _ hctx⟩
  clean := inv.clean

/-- The worker's `send_cancel`: before TERMINAL it records the reason, after it
nothing happens, and it never fails. -/
inductive WorkerSends (s : Parties) (reason : CancelReason) (seen : ChildLog) : Prop
  | records : (seen = .accepted ∨ seen = .started) →
      s.session.sendCancel reason = (.ok true, { s.session with
        state := .cancelling, cancelReason := some reason, cancelSent := true }) →
      WorkerSends s reason seen
  | skips : s.session.sendCancel reason = (.ok false, s.session) → WorkerSends s reason seen

theorem ParentCrossing.workerSends (inv : ParentCrossing env s .start seen)
    (hreason : s.session.cancelReason = none) (reason : CancelReason) :
    WorkerSends s reason seen := by
  have hdecision : s.startDecision = some true := inv.agrees
  have session := inv.session
  cases seen with
  | nothing => exact absurd (hdecision.symm.trans session.1) (by simp)
  | hello => exact absurd (hdecision.symm.trans session.1) (by simp)
  | accepted =>
      obtain ⟨-, -, h | ⟨-, h | h⟩ | h⟩ := session
      · exact absurd (hdecision.symm.trans h.1) (by simp)
      · exact .records (.inl rfl) (sendCancel_afterStart hreason (.inl h.1))
      · exact absurd hreason h.2
      · exact absurd (hdecision.symm.trans h.1) (by simp)
  | started =>
      obtain ⟨-, -, h | h⟩ := session
      · exact .records (.inr rfl) (sendCancel_afterStart hreason (.inr h.1))
      · exact absurd hreason h.2
  | terminalEarly t p => exact .skips (sendCancel_terminal hreason session.2.1)
  | terminal t p => exact .skips (sendCancel_terminal hreason session.2.1)

/-- The invariant after the worker recorded its reason. -/
theorem ParentCrossing.workerRecords (inv : ParentCrossing env s .start seen)
    (hworker : s.worker ≠ .absent) (hseen : seen = .accepted ∨ seen = .started)
    {reason : CancelReason} {pc : WorkerPc}
    (facts : WorkerFacts env { s with
      session := { s.session with
        state := .cancelling, cancelReason := some reason, cancelSent := true }
      worker := pc } .start) :
    ParentCrossing env { s with
      session := { s.session with
        state := .cancelling, cancelReason := some reason, cancelSent := true }
      worker := pc } .start seen where
  sent := inv.sent
  agrees := inv.agrees
  received := inv.received
  session := by
    have hdecision : s.startDecision = some true := inv.agrees
    have session := inv.session
    rcases hseen with rfl | rfl
    · exact ⟨session.1, session.2.1, .inr (.inl ⟨hdecision, .inr ⟨rfl, by simp⟩⟩)⟩
    · exact ⟨session.1, hdecision, .inr ⟨rfl, by simp⟩⟩
  requestId := inv.requestId
  main := inv.main.transfer hworker rfl rfl rfl
    (.inr fun t => by rcases hseen with rfl | rfl <;> exact id)
  worker := facts
  refused := fun h => by
    have hdecision : s.startDecision = some true := inv.agrees
    exact absurd (hdecision.symm.trans h) (by simp)
  clean := inv.clean

/-- The control worker keeps the parent's side, as long as no write fails. -/
theorem WorkerStep.parentCrossing (step : WorkerStep env s s')
    (inv : ParentCrossing env s log seen) (clean : s'.writeFailed = false) :
    ∃ log', ParentCrossing env s' log' seen := by
  have facts := inv.worker
  unfold WorkerFacts at facts
  have keeps : ∀ r, s.context.reason = some r → s.context.reason = some r := fun _ => id
  cases step with
  | poll hworker =>
      rw [hworker] at facts
      refine ⟨log, inv.workerMoves (by simp [hworker]) keeps ?_⟩
      cases s.stop
      · exact facts
      · exact .inl facts.1
  | checkSeen hworker =>
      rw [hworker] at facts
      refine ⟨log, inv.workerMoves (by simp [hworker]) keeps ?_⟩
      cases s.terminalSeen
      · exact facts
      · exact .inl facts.1
  | requested hworker _ =>
      rw [hworker] at facts
      exact ⟨log, inv.workerMoves (by simp [hworker]) keeps facts⟩
  | idle hworker _ _ =>
      rw [hworker] at facts
      exact ⟨log, inv.workerMoves (by simp [hworker]) keeps facts⟩
  | due hworker _ _ =>
      rw [hworker] at facts
      exact ⟨log, inv.workerMoves (by simp [hworker])
        (fun r hr => CancellationContext.insertReason_reason_of_some hr _) facts⟩
  | storeDeadline hworker =>
      rw [hworker] at facts
      exact ⟨log, inv.workerMoves (by simp [hworker]) keeps facts⟩
  | recheckSeen hworker =>
      rw [hworker] at facts
      refine ⟨log, inv.workerMoves (by simp [hworker]) keeps ?_⟩
      cases s.terminalSeen
      · exact facts
      · exact .inl facts.1
  | readReason hworker =>
      rw [hworker] at facts
      exact ⟨log, inv.workerMoves (by simp [hworker]) keeps facts⟩
  | @sendCancel reason session payload frame hworker hrun hencode hnew =>
      rw [hworker] at facts
      obtain ⟨rfl, hreason⟩ := facts
      -- The session sends the cancellation unless the terminal frame has crossed it.
      rcases inv.workerSends hreason reason with ⟨hseen, hsends⟩ | hskips
      · obtain ⟨-, rfl⟩ := Prod.mk.inj (hrun.symm.trans hsends)
        refine ⟨.start, inv.workerRecords (by simp [hworker]) hseen ⟨rfl, ?_⟩⟩
        exact ⟨reason, payload, rfl, hencode, eq_of_new hnew⟩
      · rw [hskips] at hrun
        simp at hrun
  | @sendCancelUnencodable reason session e hworker hrun hencode =>
      rw [hworker] at facts
      obtain ⟨rfl, hreason⟩ := facts
      rcases inv.workerSends hreason reason with ⟨hseen, hsends⟩ | hskips
      · obtain ⟨-, rfl⟩ := Prod.mk.inj (hrun.symm.trans hsends)
        exact ⟨.start, inv.workerRecords (by simp [hworker]) hseen (.inl rfl)⟩
      · rw [hskips] at hrun
        simp at hrun
  | @sendCancelSkipped reason session hworker hrun =>
      rw [hworker] at facts
      obtain ⟨rfl, hreason⟩ := facts
      rcases inv.workerSends hreason reason with ⟨hseen, hsends⟩ | hskips
      · rw [hsends] at hrun
        simp at hrun
      · obtain ⟨-, rfl⟩ := Prod.mk.inj (hrun.symm.trans hskips)
        exact ⟨.start, inv.workerMoves (by simp [hworker]) keeps (.inl rfl)⟩
  | @sendCancelRejected reason session e hworker hrun =>
      rw [hworker] at facts
      obtain ⟨rfl, hreason⟩ := facts
      rcases inv.workerSends hreason reason with ⟨-, hsends⟩ | hskips
      · rw [hsends] at hrun
        simp at hrun
      · rw [hskips] at hrun
        simp at hrun
  | writeCancel result hworker =>
      obtain rfl := WriteResult.sent_of_clean clean
      rw [hworker] at facts
      obtain ⟨rfl, reason, payload, hreason, hencode, rfl⟩ := facts
      have hdecision : s.startDecision = some true := inv.agrees
      refine ⟨.startCancel reason payload, ?_, ⟨hdecision, hreason, hencode⟩, inv.received,
        inv.session, inv.requestId, ?_, .inr ⟨_, _, rfl⟩, inv.refused, inv.clean⟩
      · simp only [WriteResult.deliver, Channel.push_sent, inv.sent]
        rfl
      · exact inv.main.transfer (by simp [hworker]) rfl rfl rfl (.inl rfl)
  | graceEnds hworker =>
      rw [hworker] at facts
      exact ⟨log, inv.workerMoves (by simp [hworker]) keeps facts⟩

end Worker

/-! ### The parent's session along the drivers' path -/

section Sessions

variable {p p' : SupervisorParentSession}

theorem acceptHello_ok {frame : SupervisorFrame} {token : SupervisorToken}
    (h : p.acceptHello frame token = (.ok (), p')) : p' = { p with state := .awaitAccepted } := by
  unfold acceptHello at h
  split at h <;> cases h
  rfl

theorem sendRequest_ok (h : p.sendRequest = (.ok (), p')) :
    p' = { p with requestSent := true } := by
  unfold sendRequest at h
  split at h <;> cases h
  rfl

theorem authorizeStart_ok_true {requested : Option CancelReason}
    (h : p.authorizeStart requested = (.ok true, p')) :
    p' = { p with state := .awaitStarted } := by
  unfold authorizeStart at h
  split at h
  · cases h
  · split at h <;> cases h
    rfl

theorem authorizeStart_ok_false {requested : Option CancelReason}
    (h : p.authorizeStart requested = (.ok false, p')) :
    ∃ reason, requested = some reason ∧
      p' = { p with state := .cancellingBeforeStart, cancelReason := some reason } := by
  unfold authorizeStart at h
  split at h
  · cases h
  · split at h <;> cases h
    exact ⟨_, rfl, rfl⟩

variable {json : SerdeJson SupervisorTerminal}

theorem receiveChildFrame_accepted (hid : p.requestId = supervisorRequestId)
    (hstate : p.state = .awaitAccepted) :
    p.receiveChildFrame json acceptedFrame = (.ok .accepted, { p with state := .accepted }) := by
  simp [receiveChildFrame, acceptedFrame, hid, hstate]

theorem receiveChildFrame_started (hid : p.requestId = supervisorRequestId)
    (hstate : p.state = .awaitStarted) :
    p.receiveChildFrame json startedFrame =
      (.ok .started, { p with startedReceived := true, state := .started }) := by
  simp [receiveChildFrame, startedFrame, hid, hstate]

/-- STARTED may arrive after the cancellation was recorded. -/
theorem receiveChildFrame_started_cancelling (hid : p.requestId = supervisorRequestId)
    (hstate : p.state = .cancelling) (hreceived : p.startedReceived = false) :
    p.receiveChildFrame json startedFrame =
      (.ok .started, { p with startedReceived := true }) := by
  simp [receiveChildFrame, startedFrame, hid, hstate, hreceived]

/-- What lets a session store a TERMINAL. -/
def MayStore (p : SupervisorParentSession) (terminal : SupervisorTerminal) : Prop :=
  p.state = .started ∨ p.state = .cancelling ∨
    p.state = .cancellingBeforeStart ∧ ∃ reason, p.cancelReason = some reason ∧
      terminal.outcome = preStartOutcome reason

theorem receiveChildFrame_terminal {payload : List UInt8} {terminal : SupervisorTerminal}
    (hid : p.requestId = supervisorRequestId)
    (hdecode : decodePayload json payload = .ok terminal)
    (hshape : validateSupervisorTerminalShape terminal = .ok ())
    (hnone : p.terminal = none) (hstore : MayStore p terminal) :
    p.receiveChildFrame json (terminalFrame payload) =
      (.ok .terminal, { p with terminal := some terminal, state := .terminal }) := by
  have hterminal : p.receiveTerminal terminal =
      (.ok .terminal, { p with terminal := some terminal, state := .terminal }) := by
    unfold receiveTerminal
    rw [hnone]
    rcases hstore with h | h | ⟨h, reason, hreason, houtcome⟩
    · rw [h]
    · rw [h]
    · rw [h, hreason]
      simp [houtcome]
  simp [receiveChildFrame, terminalFrame, hid, hdecode, hshape, hterminal]

end Sessions

/-! ### Steps of the parent's main thread -/

section Main

variable {Request : Type} {env : DriverEnv Request} {s s' : Parties} {log : ParentLog}
  {seen childLog : ChildLog}

/-- The serialiser is faithful at the two types whose values cross the channels. -/
structure FaithfulCodecs (env : DriverEnv Request) : Prop where
  reasons : env.reasons.Faithful fun _ => True
  terminals : env.terminals.Faithful fun t => validateSupervisorTerminalShape t = .ok ()

/-- The frame the parent receives next is the child's next frame. -/
theorem ParentCrossing.next (inv : ParentCrossing env s log seen)
    (child : ChildCrossing env s childLog) {frame : SupervisorFrame}
    {toParent : Channel SupervisorFrame} (hpop : s.toParent.pop = some (frame, toParent)) :
    NextFrame env seen frame childLog := by
  refine ChildLog.next ?_
  rw [← inv.received, ← child.sent]
  exact Channel.prefix_of_pop hpop

theorem ParentCrossing.received_snoc (inv : ParentCrossing env s log seen)
    {frame : SupervisorFrame} {toParent : Channel SupervisorFrame}
    (hpop : s.toParent.pop = some (frame, toParent)) :
    toParent.delivered = seen.frames env ++ [frame] := by
  rw [Channel.delivered_of_pop hpop, inv.received]

/-- A child that was started was started by an authorised START. -/
theorem ParentCrossing.authorised (inv : ParentCrossing env s log seen)
    (started : ReceivedStart s.toChild.delivered) : s.startDecision = some true := by
  have hstart := s.toChild.delivered_prefix
  rw [inv.sent] at hstart
  have agrees := inv.agrees
  rcases ParentLog.started_of_received hstart started with rfl | ⟨r, p, rfl⟩
  · exact agrees
  · exact agrees.1

/-- An early TERMINAL answers the refusal the session has recorded. -/
theorem ParentCrossing.refusal (inv : ParentCrossing env s log seen)
    (codecs : FaithfulCodecs env) {terminal : SupervisorTerminal}
    (early : EarlyTerminal env s terminal) :
    s.startDecision = some false ∧ ∃ reason, s.session.cancelReason = some reason ∧
      terminal.outcome = preStartOutcome reason := by
  obtain ⟨-, reason, payload, rest, hdelivered, hdecode, houtcome⟩ := early
  have hstart := s.toChild.delivered_prefix
  rw [inv.sent, hdelivered] at hstart
  obtain ⟨r, q, rfl, -, hframe⟩ := ParentLog.cancelled_of_received hstart rfl
  obtain ⟨-, hdecision, hreason, hencode⟩ := inv.agrees
  have hpayload : payload = q := by simpa [cancelFrame] using hframe
  have hsame : reason = r := by
    have hround := decodePayload_encodePayload codecs.reasons trivial hencode
    rw [← hpayload, hdecode] at hround
    exact Except.ok.inj hround
  exact ⟨hdecision, r, hreason, hsame ▸ houtcome⟩

/-- What the terminal reader finds in a child that has sent `sent`: STARTED, or a
TERMINAL the session stores. -/
inductive Reads (env : DriverEnv Request) (s : Parties) (frame : SupervisorFrame)
    (sent : ChildLog) : ChildLog → ChildLog → Prop
  | started {session : SupervisorParentSession} :
      s.startDecision = some true →
      s.session.receiveChildFrame env.terminals frame = (.ok .started, session) →
      session.requestId = s.session.requestId → session.terminal = none →
      session.cancelReason = s.session.cancelReason →
      (session.state = .started ∧ session.cancelReason = none ∨
        session.state = .cancelling ∧ session.cancelReason ≠ none) →
      frame = startedFrame → Reads env s frame sent .accepted .started
  | terminal {before : ChildLog} {t : SupervisorTerminal} :
      s.session.receiveChildFrame env.terminals frame =
        (.ok .terminal, { s.session with terminal := some t, state := .terminal }) →
      before.frames env ++ [frame] = sent.frames env →
      (∃ p, sent = .terminalEarly t p ∧ s.startDecision = some false ∨
        sent = .terminal t p ∧ s.startDecision = some true) →
      Reads env s frame sent before sent

theorem ParentCrossing.reads (inv : ParentCrossing env s log seen)
    (child : ChildCrossing env s childLog) (codecs : FaithfulCodecs env)
    (hseen : seen = .accepted ∨ seen = .started) {frame : SupervisorFrame}
    (next : NextFrame env seen frame childLog) :
    ∃ seen', Reads env s frame childLog seen seen' := by
  have session := inv.session
  have agrees := child.agrees
  cases next with
  | hello => simp at hseen
  | accepted => simp at hseen
  | started hsent =>
      have hstart : ReceivedStart s.toChild.delivered := by
        rcases hsent with rfl | ⟨t, p, rfl⟩
        · exact agrees
        · exact agrees.1
      have hdecision := inv.authorised hstart
      obtain ⟨hnone, hreceived, h | ⟨-, h | h⟩ | h⟩ := session
      · exact absurd (hdecision.symm.trans h.1) (by simp)
      · exact ⟨.started, .started hdecision (receiveChildFrame_started inv.requestId h.1) rfl
          hnone rfl (.inl ⟨rfl, h.2⟩) rfl⟩
      · exact ⟨.started, .started hdecision
          (receiveChildFrame_started_cancelling inv.requestId h.1 hreceived) rfl hnone rfl
          (.inr h) rfl⟩
      · exact absurd (hdecision.symm.trans h.1) (by simp)
  | @terminalEarly t p =>
      obtain ⟨early, hencode, -⟩ := agrees
      obtain ⟨hdecision, reason, hreason, houtcome⟩ := inv.refusal codecs early
      obtain ⟨hnone, -, h | h | h⟩ := session
      · exact absurd (hdecision.symm.trans h.1) (by simp)
      · exact absurd (hdecision.symm.trans h.1) (by simp)
      · refine ⟨.terminalEarly t p, .terminal (receiveChildFrame_terminal inv.requestId
          (decodePayload_encodePayload codecs.terminals early.1 hencode) early.1 hnone
          (.inr (.inr ⟨h.2, reason, hreason, houtcome⟩))) rfl ⟨p, .inl ⟨rfl, hdecision⟩⟩⟩
  | @terminal t p =>
      obtain ⟨-, hshape, hencode, -⟩ := agrees
      obtain ⟨hnone, hdecision, h⟩ := session
      have hstore : MayStore s.session t := h.imp And.left fun h => .inl h.1
      exact ⟨.terminal t p, .terminal (receiveChildFrame_terminal inv.requestId
        (decodePayload_encodePayload codecs.terminals hshape hencode) hshape hnone hstore) rfl
        ⟨p, .inr ⟨rfl, hdecision⟩⟩⟩

/-- Behind a TERMINAL there is nothing to receive. -/
theorem NextFrame.not_after_terminal {frame : SupervisorFrame} {terminal : SupervisorTerminal}
    (next : NextFrame env seen frame childLog) (h : seen.endsWith terminal) : False := by
  cases next <;> exact h

/-- The main thread moves on, with its log and what it has seen unchanged. -/
theorem ParentCrossing.mainMoves (inv : ParentCrossing env s log seen) {pc : MainPc}
    {context : CancellationContext} {terminalSeen stop : Bool}
    (hcontext : ∀ r, s.context.reason = some r → context.reason = some r)
    (facts : MainFacts env { s with main := pc } log seen) :
    ParentCrossing env { s with main := pc, context, terminalSeen, stop } log seen where
  sent := inv.sent
  agrees := inv.agrees
  received := inv.received
  session := inv.session
  requestId := inv.requestId
  main := facts
  worker := inv.worker
  refused := fun h => by
    obtain ⟨reason, hreason, hctx⟩ := inv.refused h
    exact ⟨reason, hreason, hcontext _ hctx⟩
  clean := inv.clean

theorem WorkerFacts.of_absent {t : Parties} (hworker : t.worker = .absent)
    (h : ∀ r p, log ≠ .startCancel r p) : WorkerFacts env t log := by
  unfold WorkerFacts
  rw [hworker]
  exact h

/-- The parent's side, with logs to be found: once it has seen a TERMINAL, it has
seen everything the child sent. -/
def ParentSide (env : DriverEnv Request) (s : Parties) (childLog : ChildLog) : Prop :=
  ∃ log seen, ParentCrossing env s log seen ∧
    ∀ terminal, seen.endsWith terminal → childLog = seen

/-- HELLO. -/
theorem ParentCrossing.hello (inv : ParentCrossing env s log seen)
    (child : ChildCrossing env s childLog) (hmain : s.main = .handshake)
    {frame : SupervisorFrame} {toParent : Channel SupervisorFrame}
    {session : SupervisorParentSession} (hpop : s.toParent.pop = some (frame, toParent))
    (hrun : s.session.acceptHello frame env.token = (.ok (), session)) :
    ParentSide env { s with toParent, session, main := .sendRequest } childLog := by
  have facts := inv.main
  unfold MainFacts at facts
  rw [hmain] at facts
  obtain ⟨rfl, rfl, hsent⟩ := facts
  obtain rfl := acceptHello_ok hrun
  obtain ⟨hdecision, hnew⟩ := inv.session
  have hframe : frame = helloFrame env := by cases inv.next child hpop; rfl
  refine ⟨.nothing, .hello, ⟨inv.sent, inv.agrees, ?_, ⟨hdecision, rfl, ?_, ?_, ?_⟩,
    inv.requestId, ⟨rfl, rfl, hsent⟩, inv.worker, inv.refused, inv.clean⟩, fun _ => False.elim⟩
  · rw [inv.received_snoc hpop, hframe]
    rfl
  · simp [hnew, SupervisorParentSession.new]
  · simp [hnew, SupervisorParentSession.new]
  · simp [hnew, SupervisorParentSession.new]

/-- The answer to REQUEST can only be ACCEPTED. -/
theorem ParentCrossing.answer (inv : ParentCrossing env s log seen)
    (child : ChildCrossing env s childLog) (hmain : s.main = .readAccepted)
    {frame : SupervisorFrame} {toParent : Channel SupervisorFrame}
    (hpop : s.toParent.pop = some (frame, toParent)) :
    s.session.receiveChildFrame env.terminals frame =
        (.ok .accepted, { s.session with state := .accepted }) ∧
      ParentSide env { s with
        toParent, session := { s.session with state := .accepted }, main := .checkDue }
        childLog := by
  have facts := inv.main
  unfold MainFacts at facts
  rw [hmain] at facts
  obtain ⟨rfl, rfl, hdecision, hsent⟩ := facts
  obtain ⟨-, hstate, hreason, hterminal, hreceived⟩ := inv.session
  have hframe : frame = acceptedFrame := by cases inv.next child hpop; rfl
  refine ⟨by rw [hframe]; exact receiveChildFrame_accepted inv.requestId hstate,
    .request, .accepted, ⟨inv.sent, inv.agrees, ?_, ⟨hterminal, hreceived, .inl ⟨hdecision, rfl,
      hreason⟩⟩, inv.requestId, ⟨rfl, rfl, hdecision, hsent⟩, inv.worker, inv.refused,
      inv.clean⟩, fun _ => False.elim⟩
  rw [inv.received_snoc hpop, hframe]
  rfl

/-- `authorize_start` answers yes. -/
theorem ParentCrossing.startAuthorized (inv : ParentCrossing env s log seen)
    (hmain : s.main = .authorize) {session : SupervisorParentSession}
    (hrun : s.session.authorizeStart s.context.reason = (.ok true, session)) :
    ParentSide env { s with session, startDecision := some true, main := .writeStart }
      childLog := by
  have facts := inv.main
  unfold MainFacts at facts
  rw [hmain] at facts
  obtain ⟨rfl, rfl, hdecision, -⟩ := facts
  obtain rfl := authorizeStart_ok_true hrun
  obtain ⟨hterminal, hreceived, h | h | h⟩ := inv.session
  · refine ⟨.request, .accepted, ⟨inv.sent, inv.agrees, inv.received, ⟨hterminal, hreceived,
      .inr (.inl ⟨rfl, .inl ⟨rfl, h.2.2⟩⟩)⟩, inv.requestId, ⟨rfl, rfl, rfl, h.2.2⟩,
      WorkerFacts.of_absent inv.agrees (by simp), fun h => (nomatch h), inv.clean⟩,
      fun _ => False.elim⟩
  · exact absurd (hdecision.symm.trans h.1) (by simp)
  · exact absurd (hdecision.symm.trans h.1) (by simp)

/-- `authorize_start` answers no and records the reason it was shown. -/
theorem ParentCrossing.startRefused (inv : ParentCrossing env s log seen)
    (hmain : s.main = .authorize) {session : SupervisorParentSession}
    (hrun : s.session.authorizeStart s.context.reason = (.ok false, session)) :
    ParentSide env { s with session, startDecision := some false, main := .readReason }
      childLog := by
  have facts := inv.main
  unfold MainFacts at facts
  rw [hmain] at facts
  obtain ⟨rfl, rfl, -, hsent⟩ := facts
  obtain ⟨reason, hreason, rfl⟩ := authorizeStart_ok_false hrun
  obtain ⟨hterminal, hreceived, -⟩ := inv.session
  exact ⟨.request, .accepted, ⟨inv.sent, inv.agrees, inv.received, ⟨hterminal, hreceived,
    .inr (.inr ⟨rfl, rfl⟩)⟩, inv.requestId, ⟨rfl, rfl, rfl, hsent⟩,
    WorkerFacts.of_absent inv.agrees (by simp), fun _ => ⟨reason, rfl, hreason⟩, inv.clean⟩,
    fun _ => False.elim⟩

/-- The main thread's `send_cancel` succeeds and asks for a CANCEL frame. -/
theorem ParentCrossing.mainSends (childLog : ChildLog) (inv : ParentCrossing env s log seen)
    {reason : CancelReason} (hmain : s.main = .sendCancel reason) :
    s.session.sendCancel reason = (.ok true, { s.session with cancelSent := true }) ∧
      ∀ pc, MainFacts env { s with
          session := { s.session with cancelSent := true }, main := pc } log seen →
        ParentSide env { s with
          session := { s.session with cancelSent := true }, main := pc } childLog := by
  have facts := inv.main
  unfold MainFacts at facts
  rw [hmain] at facts
  obtain ⟨rfl, rfl, hdecision, hsent, hreason⟩ := facts
  have session := inv.session
  obtain ⟨hterminal, hreceived, h | h | h⟩ := inv.session
  · exact absurd (hdecision.symm.trans h.1) (by simp)
  · exact absurd (hdecision.symm.trans h.1) (by simp)
  · refine ⟨sendCancel_refused hreason hsent (by simp [h.2]), fun pc hfacts => ?_⟩
    exact ⟨.request, .accepted, ⟨inv.sent, inv.agrees, inv.received, session, inv.requestId,
      hfacts, WorkerFacts.of_absent inv.agrees (by simp), inv.refused, inv.clean⟩,
      fun _ => False.elim⟩

/-- The terminal reader: STARTED is read over and TERMINAL stored. -/
theorem ParentCrossing.readsFrame (inv : ParentCrossing env s log seen)
    (hmain : s.main = .reading) {frame : SupervisorFrame} {toParent : Channel SupervisorFrame}
    (hpop : s.toParent.pop = some (frame, toParent)) {seen' : ChildLog}
    (reads : Reads env s frame childLog seen seen') :
    (∃ session, s.session.receiveChildFrame env.terminals frame = (.ok .started, session) ∧
      ParentSide env { s with toParent, session } childLog) ∨
    ∃ session t, s.session.receiveChildFrame env.terminals frame = (.ok .terminal, session) ∧
      session.terminal = some t ∧
      ParentSide env { s with
        toParent, session
        receivedTerminal := some (t, s.session.cancelReason)
        main := .duplicates t } childLog := by
  have facts := inv.main
  unfold MainFacts at facts
  rw [hmain] at facts
  have agrees := inv.agrees
  have worker := inv.worker
  unfold ParentLog.Agrees at agrees
  unfold WorkerFacts CancelInHand at worker
  cases reads with
  | @started session hdecision hrun hid hterminal hreason hstate hframe =>
      left
      refine ⟨session, hrun, log, .started, ⟨inv.sent, ?_, ?_, ⟨hterminal, hdecision, hstate⟩,
        hid.trans inv.requestId, ?_, ?_, fun h => ?_, inv.clean⟩, fun _ => False.elim⟩
      · unfold ParentLog.Agrees
        simp only [hreason]
        exact agrees
      · rw [inv.received_snoc hpop, hframe]
        rfl
      · unfold MainFacts
        rw [hmain]
        exact ⟨facts.1, .inr rfl⟩
      · unfold WorkerFacts CancelInHand
        simp only [hreason]
        exact worker
      · exact absurd (hdecision.symm.trans h) (by simp)
  | @terminal _ t hrun hframes hsent =>
      right
      refine ⟨_, t, hrun, rfl, log, childLog, ⟨inv.sent, agrees, ?_, ?_, inv.requestId, ?_, worker,
        inv.refused, inv.clean⟩, fun _ _ => rfl⟩
      · rw [inv.received_snoc hpop, hframes]
      · obtain ⟨p, ⟨rfl, hdecision⟩ | ⟨rfl, hdecision⟩⟩ := hsent
        · exact ⟨hdecision, rfl, rfl, rfl⟩
        · exact ⟨hdecision, rfl, rfl, rfl⟩
      · obtain ⟨p, ⟨rfl, -⟩ | ⟨rfl, -⟩⟩ := hsent <;> exact rfl

theorem ParentCrossing.stored (inv : ParentCrossing env s log seen)
    {terminal : SupervisorTerminal} (ends : seen.endsWith terminal) : Stored s terminal := by
  have session := inv.session
  cases seen with
  | terminalEarly t p =>
      obtain rfl : t = terminal := ends
      exact session.2
  | terminal t p =>
      obtain rfl : t = terminal := ends
      exact session.2
  | _ => exact ends.elim

/-- The child that sent a TERMINAL has exited accordingly, and its TERMINAL has a
valid shape. -/
theorem ChildCrossing.ended (child : ChildCrossing env s childLog)
    {terminal : SupervisorTerminal} (ends : childLog.endsWith terminal) :
    validateSupervisorTerminalShape terminal = .ok () ∧
      ∀ code, s.childMain = .exited code → code = terminalExitCode terminal := by
  refine ⟨?_, fun code hcode => ?_⟩
  · have agrees := child.agrees
    cases childLog with
    | terminalEarly t p =>
        obtain rfl : t = terminal := ends
        exact agrees.1.1
    | terminal t p =>
        obtain rfl : t = terminal := ends
        exact agrees.2.1
    | _ => exact ends.elim
  · have main := child.main
    unfold ChildFacts at main
    rw [hcode] at main
    exact main terminal ends

theorem Parties.reason_of_context {reason : CancelReason}
    (h : s.context.reason = some reason) : s.reason env = reason :=
  SupervisorCancellation.reason_of_requested h

/-- The mapping of the stored TERMINAL. -/
theorem ParentCrossing.maps (inv : ParentCrossing env s log seen)
    (child : ChildCrossing env s childLog)
    (ended : ∀ terminal, seen.endsWith terminal → childLog = seen)
    {terminal : SupervisorTerminal} {recorded : Option CancelReason}
    (hmain : s.main = .reaping terminal recorded) {status : Option Int} {forcedKill : Bool}
    (agrees : forcedKill = true ∨
      ∃ code, s.childMain = .exited code ∧ status = exitStatus code) :
    ParentSide env { s with
      main := .mapped
        (mapSupervisorTerminalWithCancellation terminal status forcedKill recorded) }
      childLog := by
  have facts := inv.main
  unfold MainFacts at facts
  rw [hmain] at facts
  obtain ⟨ends, rfl⟩ := facts
  have hlog := ended terminal ends
  obtain ⟨hshape, hexit⟩ := child.ended (hlog ▸ ends)
  have hstatus : forcedKill = true ∨ status = some (expectedStatus terminal) := by
    refine agrees.imp id ?_
    rintro ⟨code, hcode, rfl⟩
    rw [hexit code hcode, exitStatus_terminalExitCode hshape]
  exact ⟨log, seen, inv.mainMoves (fun _ => id)
    ⟨terminal, ends, mapSupervisorTerminal_eq hshape hstatus _⟩, ended⟩

/-- The parent's main thread keeps its side, as long as no write fails. -/
theorem MainStep.parentSide (step : MainStep env s s')
    (inv : ParentCrossing env s log seen) (child : ChildCrossing env s childLog)
    (codecs : FaithfulCodecs env)
    (ended : ∀ terminal, seen.endsWith terminal → childLog = seen)
    (clean : s'.writeFailed = false) : ParentSide env s' childLog := by
  have facts := inv.main
  have agrees := inv.agrees
  unfold MainFacts at facts
  have same : ∀ r, s.context.reason = some r → s.context.reason = some r := fun _ => id
  have inserts : ∀ r, s.context.reason = some r →
      (s.context.insertReason .deadline).reason = some r := fun r hr =>
    CancellationContext.insertReason_reason_of_some hr _
  -- A move of the main thread alone.
  have moves : ∀ {t : Parties}, ParentCrossing env t log seen → ParentSide env t childLog :=
    fun h => ⟨log, seen, h, ended⟩
  have nothingFollows : ∀ {frame toParent terminal},
      s.toParent.pop = some (frame, toParent) → seen.endsWith terminal → False :=
    fun hpop ends => (inv.next child hpop).not_after_terminal ends
  cases step with
  | hello hmain hpop _ _ _ hrun => exact inv.hello child hmain hpop hrun
  | helloRefused hmain _ htoken hkind hid hrun =>
      rw [hmain] at facts
      obtain ⟨-, rfl, -⟩ := facts
      simp [inv.session.2, acceptHello, SupervisorParentSession.new, htoken, hkind, hid] at hrun
  | @sendRequest frame session hmain hnew hrun =>
      rw [hmain] at facts
      obtain ⟨rfl, rfl, hsent⟩ := facts
      obtain rfl := sendRequest_ok hrun
      exact moves ⟨inv.sent, agrees, inv.received, inv.session, inv.requestId,
        ⟨rfl, rfl, hsent, eq_of_new hnew⟩, inv.worker, inv.refused, inv.clean⟩
  | sendRequestFails hmain _ => exact moves (inv.mainMoves same trivial)
  | writeRequest result hmain =>
      obtain rfl := WriteResult.sent_of_clean clean
      rw [hmain] at facts
      obtain ⟨rfl, rfl, hsent, rfl⟩ := facts
      refine ⟨.request, .hello, ⟨?_, agrees.1, inv.received, inv.session, inv.requestId,
        ⟨rfl, rfl, agrees.2, hsent⟩, WorkerFacts.of_absent agrees.1 (by simp), inv.refused,
        inv.clean⟩, fun _ => False.elim⟩
      simp only [WriteResult.deliver, Channel.push_sent, inv.sent]
      rfl
  | accepted hmain hpop hrun =>
      obtain ⟨hanswer, side⟩ := inv.answer child hmain hpop
      obtain ⟨-, rfl⟩ := Prod.mk.inj (hrun.symm.trans hanswer)
      exact side
  | notDue hmain _ =>
      rw [hmain] at facts
      exact moves (inv.mainMoves same facts)
  | due hmain _ _ =>
      rw [hmain] at facts
      exact moves (inv.mainMoves inserts facts)
  | storeDeadline hmain =>
      rw [hmain] at facts
      exact moves (inv.mainMoves same facts)
  | startAuthorized hmain hrun => exact inv.startAuthorized hmain hrun
  | startRefused hmain hrun => exact inv.startRefused hmain hrun
  | authorizeFails hmain _ => exact moves (inv.mainMoves same trivial)
  | writeStart result hmain hnew =>
      obtain rfl := WriteResult.sent_of_clean clean
      rw [hmain] at facts
      obtain ⟨rfl, rfl, hdecision, hreason⟩ := facts
      refine ⟨.start, .accepted, ⟨?_, hdecision, inv.received, inv.session, inv.requestId,
        ⟨rfl, rfl, agrees, hreason⟩, WorkerFacts.of_absent agrees (by simp), inv.refused,
        inv.clean⟩, fun _ => False.elim⟩
      simp only [WriteResult.deliver, Channel.push_sent, inv.sent, eq_of_new hnew]
      rfl
  | spawnWorker hmain =>
      rw [hmain] at facts
      obtain ⟨rfl, rfl, -, hreason⟩ := facts
      exact moves ⟨inv.sent, agrees, inv.received, inv.session, inv.requestId,
        ⟨rfl, .inl rfl⟩, ⟨rfl, hreason⟩, inv.refused, inv.clean⟩
  | readReason hmain =>
      rw [hmain] at facts
      obtain ⟨rfl, rfl, hdecision, hsent⟩ := facts
      obtain ⟨reason, hreason, hcontext⟩ := inv.refused hdecision
      refine moves (inv.mainMoves same ⟨rfl, rfl, hdecision, hsent, ?_⟩)
      rw [hreason, Parties.reason_of_context hcontext]
  | sendCancel hmain hrun hencode hnew =>
      obtain ⟨hsends, side⟩ := inv.mainSends childLog hmain
      obtain ⟨-, rfl⟩ := Prod.mk.inj (hrun.symm.trans hsends)
      rw [hmain] at facts
      obtain ⟨rfl, rfl, hdecision, hsent, hreason⟩ := facts
      exact side _ ⟨rfl, rfl, hdecision, _, _, hreason, hencode, eq_of_new hnew⟩
  | sendCancelUnencodable hmain hrun _ =>
      obtain ⟨hsends, side⟩ := inv.mainSends childLog hmain
      obtain ⟨-, rfl⟩ := Prod.mk.inj (hrun.symm.trans hsends)
      exact side _ trivial
  | sendCancelSkipped hmain hrun =>
      have hsends := (inv.mainSends childLog hmain).1
      rw [hsends] at hrun
      simp at hrun
  | sendCancelRejected hmain hrun =>
      have hsends := (inv.mainSends childLog hmain).1
      rw [hsends] at hrun
      simp at hrun
  | writeCancel result hmain =>
      obtain rfl := WriteResult.sent_of_clean clean
      rw [hmain] at facts
      obtain ⟨rfl, rfl, hdecision, reason, payload, hreason, hencode, rfl⟩ := facts
      refine ⟨.cancel reason payload, .accepted, ⟨?_, ⟨agrees, hdecision, hreason, hencode⟩,
        inv.received, inv.session, inv.requestId, ⟨rfl, .inl rfl⟩,
        WorkerFacts.of_absent agrees (by simp), inv.refused, inv.clean⟩, fun _ => False.elim⟩
      simp only [WriteResult.deliver, Channel.push_sent, inv.sent]
      rfl
  | readOn hmain hpop hrun hevent =>
      rw [hmain] at facts
      obtain ⟨seen', reads⟩ := inv.reads child codecs facts.2 (inv.next child hpop)
      rcases inv.readsFrame hmain hpop reads with ⟨session, hstarted, side⟩ |
        ⟨session, t, hterminal, -, -⟩
      · obtain ⟨-, rfl⟩ := Prod.mk.inj (hrun.symm.trans hstarted)
        exact side
      · obtain ⟨hanswer, -⟩ := Prod.mk.inj (hrun.symm.trans hterminal)
        exact absurd (Except.ok.inj hanswer) hevent
  | readTerminal hmain hpop hrun hstored =>
      rw [hmain] at facts
      obtain ⟨seen', reads⟩ := inv.reads child codecs facts.2 (inv.next child hpop)
      rcases inv.readsFrame hmain hpop reads with ⟨session, hstarted, -⟩ |
        ⟨session, t, hterminal, ht, side⟩
      · obtain ⟨hanswer, -⟩ := Prod.mk.inj (hrun.symm.trans hstarted)
        simp at hanswer
      · obtain ⟨-, rfl⟩ := Prod.mk.inj (hrun.symm.trans hterminal)
        obtain rfl := Option.some.inj (hstored.symm.trans ht)
        exact side
  | duplicate hmain hpop _ =>
      rw [hmain] at facts
      exact (nothingFollows hpop facts).elim
  | rejects _ hpop hrun hwhere =>
      rcases hwhere with ⟨hmain, hanswer⟩ | ⟨hmain, e, hanswer⟩ | ⟨⟨terminal, hmain⟩, -⟩
      · have haccepted := (inv.answer child hmain hpop).1
        exact absurd (Prod.mk.inj (hrun.symm.trans haccepted)).1 hanswer
      · rw [hmain] at facts
        obtain ⟨seen', reads⟩ := inv.reads child codecs facts.2 (inv.next child hpop)
        rw [hanswer] at hrun
        rcases inv.readsFrame hmain hpop reads with ⟨session, hstarted, -⟩ |
          ⟨session, t, hterminal, -, -⟩
        · simp [hstarted] at hrun
        · simp [hterminal] at hrun
      · rw [hmain] at facts
        exact (nothingFollows hpop facts).elim
  | noDuplicate hmain =>
      rw [hmain] at facts
      exact moves (inv.mainMoves same facts)
  | readCancellation hmain =>
      rw [hmain] at facts
      refine moves (inv.mainMoves same ⟨facts, ?_⟩)
      rw [cancellationBeforeTerminal, (inv.stored facts).2.1]
      rfl
  | closeAlone hmain _ =>
      rw [hmain] at facts
      exact moves (inv.mainMoves same facts)
  | markTerminal hmain _ =>
      rw [hmain] at facts
      exact moves (inv.mainMoves same facts)
  | stopWorker hmain =>
      rw [hmain] at facts
      exact moves (inv.mainMoves same facts)
  | joinWorker hmain _ =>
      rw [hmain] at facts
      exact moves (inv.mainMoves same facts)
  | reap hmain hcode => exact inv.maps child ended hmain (.inr ⟨_, hcode, rfl⟩)
  | kill status hmain => exact inv.maps child ended hmain (.inl rfl)
  | fails _ => exact moves (inv.mainMoves same trivial)
  | failingDue _ _ _ => exact moves (inv.mainMoves inserts trivial)
  | storeDeadlineFailing _ => exact moves (inv.mainMoves same trivial)
  | failAlone _ _ => exact moves (inv.mainMoves same trivial)
  | failStopping _ _ => exact moves (inv.mainMoves same trivial)
  | joinFailing _ _ => exact moves (inv.mainMoves same trivial)

/-- The parent's threads do not touch the child's side. -/
theorem MainStep.childCrossing (step : MainStep env s s')
    (inv : ChildCrossing env s childLog) : ChildCrossing env s' childLog := by
  have hsent : s'.toParent.sent = s.toParent.sent := by
    cases step with
    | hello _ hpop _ _ _ _ => exact Channel.sent_of_pop hpop
    | helloRefused _ hpop _ _ _ _ => exact Channel.sent_of_pop hpop
    | accepted _ hpop _ => exact Channel.sent_of_pop hpop
    | readOn _ hpop _ _ => exact Channel.sent_of_pop hpop
    | readTerminal _ hpop _ _ => exact Channel.sent_of_pop hpop
    | duplicate _ hpop _ => exact Channel.sent_of_pop hpop
    | rejects _ hpop _ _ => exact Channel.sent_of_pop hpop
    | _ => rfl
  cases step <;> exact inv.congr hsent ⟨[], by simp⟩ rfl rfl

theorem WorkerStep.childCrossing (step : WorkerStep env s s')
    (inv : ChildCrossing env s childLog) : ChildCrossing env s' childLog := by
  cases step <;> exact inv.congr rfl ⟨[], by simp⟩ rfl rfl

theorem ChildStep.not_exited (step : ChildStep env s s') {code : Int32} :
    s.childMain ≠ .exited code := by
  intro hexit
  cases step <;> simp_all [ChildPc.mayFail]

/-! ### Every interleaving -/

/-- The invariant of runs without a failed write. -/
def Crossing (env : DriverEnv Request) (s : Parties) : Prop :=
  ∃ childLog, ParentSide env s childLog ∧ ChildCrossing env s childLog

theorem Crossing.initial : Crossing env .initial :=
  ⟨.nothing, ⟨.nothing, .nothing, ⟨rfl, ⟨rfl, rfl⟩, rfl, ⟨rfl, rfl⟩, rfl, ⟨rfl, rfl, rfl⟩,
    fun _ _ => nofun, nofun, rfl, rfl⟩, fun _ => False.elim⟩, rfl, trivial, rfl⟩

theorem DriverStep.writeFailed_mono (step : DriverStep env s s')
    (clean : s'.writeFailed = false) : s.writeFailed = false := by
  cases step with
  | main h => cases h <;> simp_all
  | worker h => cases h <;> simp_all
  | child h => cases h <;> simp_all [Parties.withChild]
  | control h => cases h <;> simp_all
  | environment h => cases h <;> simp_all

/-- Every step of every party keeps the invariant, as long as no write fails. -/
theorem DriverStep.crossing (step : DriverStep env s s') (codecs : FaithfulCodecs env)
    (barrier : Barrier s) (inv : Crossing env s) (clean : s'.writeFailed = false) :
    Crossing env s' := by
  obtain ⟨childLog, ⟨log, seen, parent, ended⟩, child⟩ := inv
  cases step with
  | main h =>
      exact ⟨childLog, h.parentSide parent child codecs ended clean, h.childCrossing child⟩
  | worker h =>
      obtain ⟨log', parent'⟩ := h.parentCrossing parent clean
      exact ⟨childLog, ⟨log', seen, parent', ended⟩, h.childCrossing child⟩
  | child h =>
      obtain ⟨childLog', child'⟩ := h.childCrossing barrier parent.sent child clean
      refine ⟨childLog', ⟨log, seen, h.parentCrossing parent, fun terminal ends => ?_⟩, child'⟩
      -- A child whose TERMINAL was seen has exited.
      have hlog := ended terminal ends
      have agrees := child.agrees
      rw [hlog] at agrees
      have hexited : ∃ code, s.childMain = .exited code := by
        cases seen with
        | terminalEarly t p => exact agrees.2.2
        | terminal t p => exact agrees.2.2.2
        | _ => exact ends.elim
      obtain ⟨code, hcode⟩ := hexited
      exact absurd hcode h.not_exited
  | control h =>
      exact ⟨childLog, ⟨log, seen, h.parentCrossing parent, ended⟩, h.childCrossing child⟩
  | environment h =>
      exact ⟨childLog, ⟨log, seen, h.parentCrossing parent, ended⟩, h.childCrossing child⟩

theorem DriverReachable.crossing (codecs : FaithfulCodecs env) (h : DriverReachable env s)
    (clean : s.writeFailed = false) : Crossing env s := by
  have inv : s.writeFailed = false → Crossing env s := by
    refine Transition.Reachable.invariant_of (P := fun s => s.writeFailed = false →
      Crossing env s) (fun _ => DriverReachable.barrier) ?_ ?_ h
    · rintro s rfl _
      exact Crossing.initial
    · intro s s' barrier inv step clean
      exact step.crossing codecs barrier (inv (step.writeFailed_mono clean)) clean
  exact inv clean

theorem ParentLog.countP_cancel (log : ParentLog) :
    (log.frames env).countP (fun frame => frame.kind = .cancel) ≤ 1 := by
  cases log <;> simp [ParentLog.frames, requestFrame, startFrame, cancelFrame]

/-- **Crossing CANCEL and TERMINAL.** In every state the drivers reach without a
failed write: the session has rejected no frame of the child and no `send_cancel` has
failed, at most one CANCEL was sent, and a mapped result is the cancellation error of
the reason the session had recorded when it received TERMINAL, or else what that
TERMINAL alone stands for. -/
theorem crossing_cancel {Request : Type} (env : DriverEnv Request)
    (codecs : FaithfulCodecs env) (s : Parties) (reachable : DriverReachable env s)
    (writes : s.writeFailed = false) :
    s.rejected = false ∧ s.cancelRejected = false ∧
      s.toChild.sent.countP (fun frame => frame.kind = .cancel) ≤ 1 ∧
      ∀ result, s.main = .mapped result →
        ∃ terminal recorded payload,
          s.receivedTerminal = some (terminal, recorded) ∧
          encodePayload env.terminals terminal = .ok payload ∧
          terminalFrame payload ∈ s.toParent.delivered ∧
          result = match recorded with
            | some reason => .error (supervisorCancelError reason)
            | none => terminalResult terminal := by
  obtain ⟨childLog, ⟨log, seen, parent, ended⟩, child⟩ := reachable.crossing codecs writes
  refine ⟨parent.clean.1, parent.clean.2, ?_, fun result hmain => ?_⟩
  · rw [parent.sent]
    exact log.countP_cancel
  · have facts := parent.main
    unfold MainFacts at facts
    rw [hmain] at facts
    obtain ⟨terminal, ends, hresult⟩ := facts
    have agrees := child.agrees
    rw [ended terminal ends] at agrees
    have hpayload : ∃ payload, encodePayload env.terminals terminal = .ok payload ∧
        terminalFrame payload ∈ seen.frames env := by
      cases seen with
      | terminalEarly t p =>
          obtain rfl : t = terminal := ends
          exact ⟨p, agrees.2.1, by simp [ChildLog.frames]⟩
      | terminal t p =>
          obtain rfl : t = terminal := ends
          exact ⟨p, agrees.2.2.1, by simp [ChildLog.frames]⟩
      | _ => exact ends.elim
    obtain ⟨payload, hencode, hmem⟩ := hpayload
    refine ⟨terminal, s.session.cancelReason, payload, (parent.stored ends).2.2, hencode, ?_, ?_⟩
    · rw [parent.received]
      exact hmem
    · rw [hresult]
      cases s.session.cancelReason <;> rfl

end Main

/-! ### A crossing run -/

/-- What the sample program ends with. -/
def sampleOutput : RunOutput :=
  { exitCode := 0, stdout := [], stderr := [], captureTruncated := false }

/-- What the child reports for it. -/
def sampleTerminal : SupervisorTerminal := childTerminal .user false (.ok sampleOutput)

/-- The parties while the child runs user code and STARTED is on its way. -/
def sampleRunning : Parties :=
  { Parties.initial with
    session :=
      { SupervisorParentSession.new supervisorRequestId with
        state := .awaitStarted, requestSent := true }
    child :=
      { SupervisorChildSession.new with
        requestId := some supervisorRequestId, state := .started }
    toChild := { delivered := [requestFrame sampleEnv, startFrame], inFlight := [] }
    toParent := { delivered := [helloFrame sampleEnv, acceptedFrame], inFlight := [startedFrame] }
    main := .reading
    worker := .poll
    childMain := .running
    control := .waiting
    startDecision := some true
    startedReached := true }

theorem sampleRunning_reachable : DriverReachable sampleEnv sampleRunning := by
  refine ⟨Parties.initial, rfl, ?_⟩
  refine .head (.child (.writeHello .sent rfl rfl)) ?_
  refine .head (.main (.hello rfl rfl (by decide) rfl rfl rfl)) ?_
  refine .head (.main (.sendRequest rfl rfl rfl)) ?_
  refine .head (.main (.writeRequest .sent rfl)) ?_
  refine .head (.child (.request rfl rfl rfl rfl (by decide))) ?_
  refine .head (.child (.writeAccepted .sent rfl rfl rfl)) ?_
  refine .head (.main (.accepted rfl rfl rfl)) ?_
  refine .head (.main (.notDue rfl (.inr (by decide)))) ?_
  refine .head (.main (.startAuthorized rfl rfl)) ?_
  refine .head (.main (.writeStart .sent rfl rfl)) ?_
  refine .head (.main (.spawnWorker rfl)) ?_
  refine .head (.child (.started rfl rfl rfl rfl)) ?_
  refine .head (.child (.startControl rfl)) ?_
  exact .single (.child (.writeStarted .sent rfl rfl rfl))

/-- The parties while a user's CANCEL and the TERMINAL of a completed run cross. -/
def sampleCrossing : Parties :=
  { sampleRunning with
    context := { requested := true, reason := some .user }
    session :=
      { sampleRunning.session with
        state := .cancelling, cancelSent := true, cancelReason := some .user }
    child :=
      { sampleRunning.child with
        state := .terminal, terminal := some sampleTerminal }
    toChild :=
      { sampleRunning.toChild with inFlight := [cancelFrame (reasonText .user)] }
    toParent :=
      { sampleRunning.toParent with
        inFlight :=
          [startedFrame, terminalFrame (terminalText sampleTerminal)] }
    worker := .grace
    childMain := .exited (terminalExitCode sampleTerminal)
    control := .done
    childStop := true }

theorem sampleCrossing_reachable : DriverReachable sampleEnv sampleCrossing := by
  refine sampleRunning_reachable.run ?_
  refine .head (.child (.finish (.ok sampleOutput) rfl)) ?_
  refine .head (.child (.stopControl rfl)) ?_
  refine .head (.control (.stopped rfl rfl)) ?_
  refine .head (.child (.joinControl rfl rfl)) ?_
  refine .head (.child (.decide rfl)) ?_
  refine .head (.child (.markTerminal rfl rfl rfl rfl rfl)) ?_
  refine .head (.environment (.recordReason .user)) ?_
  refine .head (.environment (.storeRequested (by decide))) ?_
  refine .head (.worker (.poll rfl)) ?_
  refine .head (.worker (.checkSeen rfl)) ?_
  refine .head (.worker (.requested rfl rfl)) ?_
  refine .head (.worker (.recheckSeen rfl)) ?_
  refine .head (.worker (.readReason rfl)) ?_
  refine .head (.worker (.sendCancel rfl rfl rfl rfl)) ?_
  refine .head (.worker (.writeCancel .sent rfl)) ?_
  exact .head (.child (.writeTerminal .sent rfl)) .refl

/-- The parties at the end of that run: the TERMINAL is mapped to the cancellation. -/
def sampleMapped : Parties :=
  { sampleCrossing with
    session :=
      { sampleCrossing.session with
        state := .terminal, startedReceived := true
        terminal := some sampleTerminal }
    toParent :=
      { delivered := sampleCrossing.toParent.sent, inFlight := [] }
    main := .mapped (.error (supervisorCancelError .user))
    worker := .done
    stop := true
    terminalSeen := true
    receivedTerminal := some (sampleTerminal, some .user) }

theorem sampleMapped_reachable : DriverReachable sampleEnv sampleMapped := by
  refine sampleCrossing_reachable.run ?_
  refine .head (.main (.readOn rfl rfl rfl (by decide))) ?_
  refine .head (.main (.readTerminal rfl rfl rfl rfl)) ?_
  refine .head (.main (.noDuplicate rfl)) ?_
  refine .head (.main (.readCancellation rfl)) ?_
  refine .head (.main (.markTerminal rfl (by decide))) ?_
  refine .head (.main (.stopWorker rfl)) ?_
  refine .head (.worker (.graceEnds rfl)) ?_
  refine .head (.main (.joinWorker rfl rfl)) ?_
  exact .head (.main (.reap rfl rfl)) .refl

theorem sampleEnv_codecs : FaithfulCodecs sampleEnv where
  reasons := jsonReasons_faithful
  terminals := jsonTerminals_faithful

/-- The completed run of the child is reported as the user's cancellation. -/
theorem crossing_cancel_mapped :
    sampleMapped.rejected = false ∧ sampleMapped.cancelRejected = false ∧
      sampleMapped.toChild.sent.countP (fun frame => frame.kind = .cancel) ≤ 1 ∧
      ∃ terminal recorded payload,
        sampleMapped.receivedTerminal = some (terminal, recorded) ∧
        encodePayload sampleEnv.terminals terminal = .ok payload ∧
        terminalFrame payload ∈ sampleMapped.toParent.delivered ∧
        (.error (supervisorCancelError .user) : Except LibdenoError RunOutput) =
          match recorded with
          | some reason => .error (supervisorCancelError reason)
          | none => terminalResult terminal := by
  obtain ⟨rejected, cancelRejected, cancels, mapped⟩ :=
    crossing_cancel sampleEnv sampleEnv_codecs sampleMapped sampleMapped_reachable rfl
  exact ⟨rejected, cancelRejected, cancels, mapped _ rfl⟩

end Libdeno.Supervisor
