import Mathlib.Logic.Function.Basic
import Libdeno.Library.Pool
import Libdeno.Library.Transition
import Libdeno.Executor.Scheduler
import Libdeno.Supervisor.SessionRuns

/-!
# Libdeno.Executor.System

The executor as a transition system: a memory shared by any number of threads, each
of which runs one of `submit`, `manager_loop`, `request_cancel`, `shutdown` and a
task's `run`. Every section under the scheduler's lock, every section under a
control's lock, every atomic access and each of the two writes of
`request_with_reason` is a step of its own.

A section that works on several controls is several steps: `locked` is set while
such a section is open, and every section under the same lock waits for it. Controls
of owners in the queue or in `ready` are reached under that lock only, so the sweep
of the manager and the drain of `shutdown` mark them in the step that takes them out.

`wait_timeout` may return at any time, so a wait is a return to the loop; for the
same reason the grace period may end at any time. Backends are arbitrary: they may
run for any number of steps and return anything, and a panic of theirs is a result
like any other.
-/

namespace Libdeno.Executor

open Supervisor

/-! ### The shared memory -/

/-- One execution: its `TaskControl` and its `ResultCell`. The other fields are
history: whether it was admitted, was ever Started, had START authorised on its
supervisor session; the backend result that `resolve_backend_result` resolved; how
often `publish` was called; and whether its owner was dropped without publishing. -/
structure Execution where
  control : TaskControl
  completion : Option Outcome
  admitted : Bool
  entered : Bool
  authorised : Bool
  resolved : Option Outcome
  published : Nat
  dropped : Bool

namespace Execution

/-- The entry of a key no execution was admitted under. -/
def absent : Execution where
  control := .new 0 .inProcess none
  completion := none
  admitted := false
  entered := false
  authorised := false
  resolved := none
  published := 0
  dropped := false

/-- A fresh execution as `submit` leaves it. -/
def fresh (id : UInt64) (backend : ExecutionBackend) (deadline : Option Nat)
    (permit : TaskPermit) : Execution :=
  let control := TaskControl.new id backend deadline
  { absent with
    control := if permit = .active then control.markAccepted else control
    admitted := true }

/-- The execution after a section of its control. -/
def withControl (self : Execution) (control : TaskControl) : Execution :=
  { self with control, entered := self.entered || control.lifecycle = .started }

/-- First write of `request_with_reason` on the execution's context. -/
def insertReason (self : Execution) (reason : CancelReason) : Execution :=
  { self with
    control :=
      { self.control with cancellation := self.control.cancellation.insertReason reason } }

/-- Second write of `request_with_reason`. -/
def storeRequested (self : Execution) : Execution :=
  { self with
    control := { self.control with cancellation := self.control.cancellation.storeRequested } }

/-- All of `mark_cancelling`, where nothing can come in between. -/
def markCancelling (self : Execution) (reason : CancelReason) : Execution :=
  let marked := self.withControl (self.control.markCancelling reason).2
  if (self.control.markCancelling reason).1 = .requested then
    (marked.insertReason reason).storeRequested
  else
    marked

/-- The history of an `authorize_start` on the execution's session. -/
def authorize (self : Execution) (authorizes : Bool) : Execution :=
  { self with authorised := self.authorised || authorizes }

/-- The execution after `resolve_backend_result` took a backend's result. -/
def resolve (self : Execution) (control : TaskControl) (backendResult : Outcome) : Execution :=
  { self.withControl control with resolved := some backendResult }

/-- The history of an owner dropped without publishing. -/
def drop (self : Execution) : Execution := { self with dropped := true }

/-- `ResultCell::publish`: the first result stays. -/
def publish (self : Execution) (result : Outcome) : Execution :=
  { self with
    completion := some (self.completion.getD result)
    published := self.published + 1 }

end Execution

/-- The counters of one `shutdown` call, as the executions they count, with the length
of the queue at its first section (history). -/
structure ShutdownTally where
  lengthAtSection : Nat
  queued : List Nat
  acceptedNotStarted : List Nat
  activeRequested : List Nat

/-- `ShutdownReport`. -/
structure ShutdownReport where
  queuedCancelled : Nat
  acceptedNotStartedCancelled : Nat
  activeCancelRequested : Nat
  deriving Repr, DecidableEq

/-- The report a `shutdown` call returns. -/
def ShutdownTally.report (self : ShutdownTally) : ShutdownReport where
  queuedCancelled := self.queued.length
  acceptedNotStartedCancelled := self.acceptedNotStarted.length
  activeCancelRequested := self.activeRequested.length

/-- What the threads share. The last three fields are history: the answers of the
handles' `cancel` calls, the tallies of the `shutdown` calls that returned, and
whether the first section of some `shutdown` call has ended. -/
structure Memory where
  now : Nat
  locked : Bool
  state : SchedulerState
  managerStarted : Bool
  tasks : Nat → Execution
  cancelled : List (Nat × CancelOutcome)
  reports : List ShutdownTally
  sectionEnded : Bool

namespace Memory

/-- A new executor. -/
def initial : Memory where
  now := 0
  locked := false
  state := .new
  managerStarted := false
  tasks := fun _ => .absent
  cancelled := []
  reports := []
  sectionEnded := false

/-- Change one execution. -/
def modify (self : Memory) (key : Nat) (change : Execution → Execution) : Memory :=
  { self with tasks := Function.update self.tasks key (change (self.tasks key)) }

@[simp] theorem modify_tasks_self (self : Memory) (key : Nat) (change : Execution → Execution) :
    (self.modify key change).tasks key = change (self.tasks key) :=
  Function.update_self _ _ _

theorem modify_tasks_of_ne (self : Memory) {key k : Nat} (h : k ≠ key)
    (change : Execution → Execution) : (self.modify key change).tasks k = self.tasks k :=
  Function.update_of_ne h _ _

/-- The control of an execution. -/
def control (self : Memory) (key : Nat) : TaskControl := (self.tasks key).control

/-- After a section of an execution's control. -/
def setControl (self : Memory) (key : Nat) (control : TaskControl) : Memory :=
  self.modify key (·.withControl control)

/-- `mark_cancelling` on the controls of some owners, as they leave a list. -/
def markOwners (self : Memory) (owners : List TaskOwner) (reason : CancelReason) : Memory :=
  { self with
    tasks := fun key =>
      if key ∈ owners.map TaskOwner.key then (self.tasks key).markCancelling reason
      else self.tasks key }

end Memory

/-! ### Threads -/

/-- A request to an execution's context under way: the two writes of
`request_with_reason`, the first of which may be done. -/
structure Notify where
  key : Nat
  reason : CancelReason
  recorded : Bool
  deriving Repr, DecidableEq

/-- How far `send_terminal` has come with an owner: before `mark_terminal`; before its
permit is dropped, with the result to be published, or none if the owner is dropped
for nothing; before `publish`. -/
inductive CloseStage
  | mark (lifecycle : ExecutionState) (result : Outcome)
  | release (result : Option Outcome)
  | publish (result : Outcome)

/-- An owner being closed. -/
structure Closing where
  owner : TaskOwner
  stage : CloseStage

/-- Who called `request_cancel`: a handle, or `shutdown` after its grace period with
the controls it has not come to yet. -/
inductive Caller
  | handle
  | shutdown (tally : ShutdownTally) (todo : List Nat)

/-- Where a thread stands. -/
inductive Pc
  /-- `submit`, before its section. -/
  | submit (runner : ExecutionBackend) (deadline : Option Nat)
  | ensureManager
  | spawnManager
  | resetFlag
  | failPending
  /-- `manager_loop`, at the top. -/
  | manager
  /-- Lock held: reading the states of the active controls. -/
  | collect (now : Nat) (expired : List TaskOwner) (todo due : List Nat)
  /-- Lock held: marking those that are due, then promoting and dispatching. -/
  | promote (expired : List TaskOwner) (due : List Nat)
  | decided (exit : Bool) (dispatch : Option TaskOwner)
  | exiting
  | idle
  /-- `request_cancel`, before its section. -/
  | cancel (key : Nat) (reason : CancelReason) (caller : Caller)
  /-- Lock held: the control was not terminal. -/
  | cancelling (key : Nat) (reason : CancelReason) (caller : Caller)
  /-- Lock held: the control is marked and its owner, if found, is taken out. -/
  | cancelMarked (key : Nat) (reason : CancelReason) (outcome : CancelOutcome)
      (owner : Option TaskOwner) (caller : Caller)
  | cancelReturn (key : Nat) (outcome : CancelOutcome) (caller : Caller)
  /-- `shutdown`, before its first section. -/
  | shutdown
  /-- Lock held: classifying the active controls. -/
  | classify (tally : ShutdownTally) (drained : List TaskOwner) (todo : List Nat)
  /-- Lock held: the control was read as accepted and not started. -/
  | classifyMark (tally : ShutdownTally) (drained : List TaskOwner) (key : Nat)
      (todo : List Nat)
  | grace (tally : ShutdownTally)
  /-- Lock held: collecting the started controls. -/
  | collectStarted (tally : ShutdownTally) (todo found : List Nat)
  | cancelStarted (tally : ShutdownTally) (todo : List Nat)
  /-- A task's thread, before `begin_start`. -/
  | task (owner : TaskOwner)
  | refused (owner : TaskOwner)
  /-- The backend runs; a supervised one drives a session. -/
  | executing (owner : TaskOwner) (session : SupervisorParentSession)
  | authorizing (owner : TaskOwner) (session : SupervisorParentSession)
  | done

/-- A thread: before it goes on at `pc` it finishes a request to a context and the
owners it has to close. -/
structure Thread where
  pc : Pc
  notify : Option Notify := none
  closing : List Closing := []

/-- `send_terminal` is due on these owners. -/
def closeAll (owners : List TaskOwner) (lifecycle : ExecutionState)
    (result : TaskOwner → Outcome) : List Closing :=
  owners.map fun owner => { owner, stage := .mark lifecycle (result owner) }

/-- The request that follows a control section, if there is one. -/
def notifying (key : Nat) (reason : Option CancelReason) : Option Notify :=
  reason.map fun reason => { key, reason, recorded := false }

/-- The request that follows `mark_cancelling`. -/
def notifyingRequested (key : Nat) (reason : CancelReason) (outcome : CancelOutcome) :
    Option Notify :=
  if outcome = .requested then some { key, reason, recorded := false } else none

/-- The owner a task's thread runs. -/
def Pc.running? : Pc → Option TaskOwner
  | .task owner | .refused owner | .executing owner _ | .authorizing owner _ => some owner
  | _ => none

/-! ### Steps of the functions -/

section Steps

variable (config : AdmissionConfig) (m : Memory)

/-- `submit`, `ensure_manager` and `fail_pending`. -/
inductive SubmitStep : Pc → Memory → Thread → List Thread → Prop
  | rejected {runner : ExecutionBackend} {deadline : Option Nat} {error : SubmitError}
      {state : SchedulerState} :
      m.locked = false → m.state.submit config runner deadline = (.error error, state) →
      SubmitStep (.submit runner deadline) { m with state } { pc := .done } []
  | admitted {runner : ExecutionBackend} {deadline : Option Nat} {permit : TaskPermit}
      {state : SchedulerState} :
      m.locked = false → m.state.submit config runner deadline = (.ok permit, state) →
      SubmitStep (.submit runner deadline)
        { m with
          state
          tasks := Function.update m.tasks m.state.submissions
            (.fresh m.state.nextId runner deadline permit) }
        { pc := .ensureManager } []
  | managerRunning :
      m.managerStarted = true → SubmitStep .ensureManager m { pc := .done } []
  | claimManager :
      m.managerStarted = false →
      SubmitStep .ensureManager { m with managerStarted := true } { pc := .spawnManager } []
  | managerSpawned : SubmitStep .spawnManager m { pc := .done } [{ pc := .manager }]
  | managerFails : SubmitStep .spawnManager m { pc := .resetFlag } []
  | resetFlag :
      SubmitStep .resetFlag { m with managerStarted := false } { pc := .failPending } []
  | failPending (message : String) :
      m.locked = false →
      SubmitStep .failPending { m with state := m.state.drain }
        { pc := .done
          closing := closeAll (m.state.queue ++ m.state.ready) .failed fun owner =>
            .error ((m.control owner.key).internalFailure message none) }
        []

/-- `manager_loop`, with `spawn_task`. -/
inductive ManagerStep : Pc → Memory → Thread → List Thread → Prop
  /-- The time is read once a turn. -/
  | sweep {expired : List TaskOwner} {state : SchedulerState} {todo : List Nat} :
      m.locked = false → m.state.sweep m.now = (expired, state) →
      todo.Perm m.state.active.keys →
      ManagerStep .manager
        { m.markOwners expired .deadline with state, locked := true }
        { pc := .collect m.now expired todo [] } []
  | collect {now : Nat} {expired : List TaskOwner} {key : Nat} {todo due : List Nat} :
      ManagerStep (.collect now expired (key :: todo) due) m
        { pc := .collect now expired todo
            (if (m.control key).deadline.any (· ≤ now) ∧
                ((m.control key).lifecycle = .acceptedNotStarted ∨
                  (m.control key).lifecycle = .started) then
              due ++ [key]
            else due) }
        []
  | collected {now : Nat} {expired : List TaskOwner} {due : List Nat} :
      ManagerStep (.collect now expired [] due) m { pc := .promote expired due } []
  | expire {expired : List TaskOwner} {key : Nat} {due : List Nat} {outcome : CancelOutcome}
      {control : TaskControl} :
      (m.control key).markCancelling .deadline = (outcome, control) →
      ManagerStep (.promote expired (key :: due)) (m.setControl key control)
        { pc := .promote expired due, notify := notifyingRequested key .deadline outcome } []
  | promote {expired : List TaskOwner} {owner : TaskOwner} {state : SchedulerState} :
      m.state.promoteNext config = some (owner, state) →
      ManagerStep (.promote expired [])
        { m.setControl owner.key (m.control owner.key).markAccepted with state }
        { pc := .promote expired [] } []
  /-- Dispatch, decide whether to exit, unlock; then close what has expired. -/
  | dispatch {expired : List TaskOwner} {dispatch : Option TaskOwner}
      {state : SchedulerState} :
      m.state.promoteNext config = none → m.state.dispatchNext = (dispatch, state) →
      ManagerStep (.promote expired []) { m with state, locked := false }
        { pc := .decided state.shouldExit dispatch
          closing := closeAll expired .terminated fun owner =>
            .error ((m.control owner.key).reasonFailure .deadline) }
        []
  /-- `break`; an owner taken for dispatch would be dropped. -/
  | leave {dispatch : Option TaskOwner} :
      ManagerStep (.decided true dispatch) m
        { pc := .exiting
          closing := dispatch.toList.map fun owner => { owner, stage := .release none } }
        []
  | clearFlag : ManagerStep .exiting { m with managerStarted := false } { pc := .done } []
  | goIdle : ManagerStep (.decided false none) m { pc := .idle } []
  | idleExit :
      m.locked = false → m.state.isIdle = true →
      ManagerStep .idle { m with managerStarted := false } { pc := .done } []
  /-- Something is pending, or the wait ended. -/
  | again :
      m.locked = false → m.state.isIdle = false →
      ManagerStep .idle m { pc := .manager } []
  | spawnTask {owner : TaskOwner} :
      ManagerStep (.decided false (some owner)) m { pc := .manager }
        [{ pc := .task owner }]
  | spawnTaskFails {owner : TaskOwner} (message : String) :
      ManagerStep (.decided false (some owner)) m
        { pc := .manager
          closing := closeAll [owner] .failed fun owner =>
            .error ((m.control owner.key).internalFailure message none) }
        []

/-- What a caller does with the answer of `request_cancel`. -/
def Caller.resume (key : Nat) (outcome : CancelOutcome) : Caller → Memory × Thread
  | .handle => ({ m with cancelled := m.cancelled ++ [(key, outcome)] }, { pc := .done })
  | .shutdown tally todo =>
      let counted := outcome ≠ .alreadyTerminal ∧ outcome ≠ .alreadyRequested
      (m, { pc := .cancelStarted
              { tally with
                activeRequested :=
                  if counted then tally.activeRequested ++ [key] else tally.activeRequested }
              todo })

/-- `request_cancel`. -/
inductive CancelStep : Pc → Memory → Thread → List Thread → Prop
  | terminal {key : Nat} {reason : CancelReason} {caller : Caller} :
      m.locked = false → (m.control key).lifecycle.isTerminal = true →
      CancelStep (.cancel key reason caller) m
        { pc := .cancelReturn key .alreadyTerminal caller } []
  | lock {key : Nat} {reason : CancelReason} {caller : Caller} :
      m.locked = false → (m.control key).lifecycle.isTerminal = false →
      CancelStep (.cancel key reason caller) { m with locked := true }
        { pc := .cancelling key reason caller } []
  | mark {key : Nat} {reason : CancelReason} {caller : Caller} {owner : Option TaskOwner}
      {state : SchedulerState} {outcome : CancelOutcome} {control : TaskControl} :
      m.state.takeOwner (m.control key).id = (owner, state) →
      (m.control key).markCancelling reason = (outcome, control) →
      CancelStep (.cancelling key reason caller) { m.setControl key control with state }
        { pc := .cancelMarked key reason outcome owner caller
          notify := notifyingRequested key reason outcome }
        []
  | unlock {key : Nat} {reason : CancelReason} {outcome : CancelOutcome}
      {owner : Option TaskOwner} {caller : Caller} :
      CancelStep (.cancelMarked key reason outcome owner caller) { m with locked := false }
        { pc := .cancelReturn key outcome caller
          closing := closeAll owner.toList .terminated fun owner =>
            .error ((m.control owner.key).reasonFailure reason) }
        []
  | answer {key : Nat} {outcome : CancelOutcome} {caller : Caller} :
      CancelStep (.cancelReturn key outcome caller) (caller.resume m key outcome).1
        (caller.resume m key outcome).2 []

/-- `shutdown`. -/
inductive ShutdownStep : Pc → Memory → Thread → List Thread → Prop
  | close {todo : List Nat} :
      m.locked = false → todo.Perm m.state.active.keys →
      ShutdownStep .shutdown
        { m.markOwners m.state.ready .shutdown with state := m.state.close, locked := true }
        { pc := .classify
            { lengthAtSection := m.state.queue.length
              queued := m.state.queue.map TaskOwner.key
              acceptedNotStarted := m.state.ready.map TaskOwner.key
              activeRequested := [] }
            (m.state.queue ++ m.state.ready) todo }
        []
  | read {tally : ShutdownTally} {drained : List TaskOwner} {key : Nat} {todo : List Nat} :
      (m.control key).lifecycle = .acceptedNotStarted →
      ShutdownStep (.classify tally drained (key :: todo)) m
        { pc := .classifyMark tally drained key todo } []
  | skip {tally : ShutdownTally} {drained : List TaskOwner} {key : Nat} {todo : List Nat} :
      (m.control key).lifecycle ≠ .acceptedNotStarted →
      ShutdownStep (.classify tally drained (key :: todo)) m
        { pc := .classify tally drained todo } []
  | mark {tally : ShutdownTally} {drained : List TaskOwner} {key : Nat} {todo : List Nat}
      {outcome : CancelOutcome} {control : TaskControl} :
      (m.control key).markCancelling .shutdown = (outcome, control) →
      ShutdownStep (.classifyMark tally drained key todo) (m.setControl key control)
        { pc := .classify
            { tally with
              acceptedNotStarted :=
                if outcome = .requested then tally.acceptedNotStarted ++ [key]
                else tally.acceptedNotStarted }
            drained todo
          notify := notifyingRequested key .shutdown outcome }
        []
  /-- The end of the first section. -/
  | unlock {tally : ShutdownTally} {drained : List TaskOwner} :
      ShutdownStep (.classify tally drained []) { m with locked := false, sectionEnded := true }
        { pc := .grace tally
          closing := closeAll drained .terminated fun owner =>
            .error ((m.control owner.key).reasonFailure .shutdown) }
        []
  | drained {tally : ShutdownTally} :
      m.locked = false → m.state.active = [] →
      ShutdownStep (.grace tally) { m with reports := m.reports ++ [tally] }
        { pc := .done } []
  | graceOver {tally : ShutdownTally} {todo : List Nat} :
      m.locked = false → todo.Perm m.state.active.keys →
      ShutdownStep (.grace tally) { m with locked := true }
        { pc := .collectStarted tally todo [] } []
  | collect {tally : ShutdownTally} {key : Nat} {todo found : List Nat} :
      ShutdownStep (.collectStarted tally (key :: todo) found) m
        { pc := .collectStarted tally todo
            (if (m.control key).lifecycle = .started then found ++ [key] else found) }
        []
  | collected {tally : ShutdownTally} {found : List Nat} :
      ShutdownStep (.collectStarted tally [] found) { m with locked := false }
        { pc := .cancelStarted tally found } []
  | skipTerminal {tally : ShutdownTally} {key : Nat} {todo : List Nat} :
      (m.control key).lifecycle.isTerminal = true →
      ShutdownStep (.cancelStarted tally (key :: todo)) m
        { pc := .cancelStarted tally todo } []
  | cancel {tally : ShutdownTally} {key : Nat} {todo : List Nat} :
      (m.control key).lifecycle.isTerminal = false →
      ShutdownStep (.cancelStarted tally (key :: todo)) m
        { pc := .cancel key .shutdown (.shutdown tally todo) } []
  | report {tally : ShutdownTally} :
      ShutdownStep (.cancelStarted tally []) { m with reports := m.reports ++ [tally] }
        { pc := .done } []

/-- A task's thread: `TaskOwner::run` with the backend it drives. -/
inductive TaskStep : Pc → Memory → Thread → List Thread → Prop
  | start {owner : TaskOwner} {requested : Option CancelReason} {control : TaskControl} :
      (m.control owner.key).beginStart m.now = (true, requested, control) →
      TaskStep (.task owner) (m.setControl owner.key control)
        { pc := .executing owner (.new supervisorRequestId)
          notify := notifying owner.key requested }
        []
  | refuse {owner : TaskOwner} {requested : Option CancelReason} {control : TaskControl} :
      (m.control owner.key).beginStart m.now = (false, requested, control) →
      TaskStep (.task owner) (m.setControl owner.key control)
        { pc := .refused owner, notify := notifying owner.key requested } []
  | refused {owner : TaskOwner} :
      TaskStep (.refused owner) m
        { pc := .done
          closing := closeAll [owner] .terminated fun owner =>
            .error (m.control owner.key).refusedFailure }
        []
  /-- A call on the supervisor session other than `authorize_start`. -/
  | session {owner : TaskOwner} {session : SupervisorParentSession}
      (json : SerdeJson SupervisorTerminal) (op : ParentOp) :
      owner.runner = .subprocess → (∀ requested, op ≠ .authorizeStart requested) →
      TaskStep (.executing owner session) m
        { pc := .executing owner (op.apply json session).2 } []
  | accepted {owner : TaskOwner} {session : SupervisorParentSession} :
      owner.runner = .subprocess →
      TaskStep (.executing owner session) m { pc := .authorizing owner session } []
  /-- `authorize_start` reads the reason recorded in the context. -/
  | authorize {owner : TaskOwner} {session session' : SupervisorParentSession}
      {answer : Except IoError Bool} :
      session.authorizeStart (m.control owner.key).cancellation.reason = (answer, session') →
      TaskStep (.authorizing owner session)
        (m.modify owner.key
          (·.authorize (session.authorizes (m.control owner.key).cancellation.reason)))
        { pc := .executing owner session' } []
  /-- STARTED was received: `on_started`. -/
  | started {owner : TaskOwner} {session : SupervisorParentSession} :
      owner.runner = .subprocess → session.startedReceived = true →
      TaskStep (.executing owner session)
        (m.setControl owner.key (m.control owner.key).markStarted.2)
        { pc := .executing owner session } []
  /-- The backend requests its own deadline, in two writes. -/
  | recordDeadline {owner : TaskOwner} {session : SupervisorParentSession} :
      TaskStep (.executing owner session)
        (m.modify owner.key (·.insertReason .deadline))
        { pc := .executing owner session } []
  | storeDeadline {owner : TaskOwner} {session : SupervisorParentSession} :
      (m.control owner.key).cancellation.reason ≠ none →
      TaskStep (.executing owner session) (m.modify owner.key (·.storeRequested))
        { pc := .executing owner session } []
  | resolve {owner : TaskOwner} {session : SupervisorParentSession} (backendResult : Outcome)
      {lifecycle : ExecutionState} {result : Outcome} {control : TaskControl} :
      (m.control owner.key).resolveBackendResult backendResult owner.runner =
        (some (lifecycle, result), control) →
      TaskStep (.executing owner session)
        (m.modify owner.key (·.resolve control backendResult))
        { pc := .done, closing := [{ owner, stage := .release (some result) }] } []
  | resolveRefused {owner : TaskOwner} {session : SupervisorParentSession}
      (backendResult : Outcome) {control : TaskControl} :
      (m.control owner.key).resolveBackendResult backendResult owner.runner =
        (none, control) →
      TaskStep (.executing owner session) m
        { pc := .done, closing := [{ owner, stage := .release none }] } []
  /-- `run` itself panics. -/
  | panic {pc : Pc} {owner : TaskOwner} :
      pc.running? = some owner →
      TaskStep pc m
        { pc := .done
          closing := closeAll [owner] .failed fun owner =>
            .error ((m.control owner.key).internalFailure "submission task panicked" none) }
        []

end Steps

/-! ### Steps of threads -/

/-- Dropping an owner's permit: an active one is released under the lock. -/
def Memory.dropPermit (m : Memory) (owner : TaskOwner) : Memory :=
  if owner.permit = some .active then { m with state := m.state.releaseActive owner.id } else m

/-- One step of a function. -/
inductive PcStep (config : AdmissionConfig) (m : Memory) (pc : Pc) (m' : Memory) (t' : Thread)
    (spawned : List Thread) : Prop
  | submit : SubmitStep config m pc m' t' spawned → PcStep config m pc m' t' spawned
  | manager : ManagerStep config m pc m' t' spawned → PcStep config m pc m' t' spawned
  | cancel : CancelStep m pc m' t' spawned → PcStep config m pc m' t' spawned
  | shutdown : ShutdownStep m pc m' t' spawned → PcStep config m pc m' t' spawned
  | task : TaskStep m pc m' t' spawned → PcStep config m pc m' t' spawned

/-- One step of a thread: a write of the request under way, a step of `send_terminal`
on the first owner to close, or a step of its function. -/
inductive ThreadStep (config : AdmissionConfig) (m : Memory) :
    Thread → Memory → Thread → List Thread → Prop
  | recordReason {pc : Pc} {key : Nat} {reason : CancelReason} {closing : List Closing} :
      ThreadStep config m { pc, notify := some { key, reason, recorded := false }, closing }
        (m.modify key (·.insertReason reason))
        { pc, notify := some { key, reason, recorded := true }, closing } []
  | storeRequested {pc : Pc} {key : Nat} {reason : CancelReason} {closing : List Closing} :
      ThreadStep config m { pc, notify := some { key, reason, recorded := true }, closing }
        (m.modify key (·.storeRequested)) { pc, closing } []
  | markTerminal {pc : Pc} {owner : TaskOwner} {lifecycle : ExecutionState} {result : Outcome}
      {closing : List Closing} {control : TaskControl} :
      (m.control owner.key).markTerminal lifecycle = (true, control) →
      ThreadStep config m { pc, closing := { owner, stage := .mark lifecycle result } :: closing }
        (m.setControl owner.key control)
        { pc, closing := { owner, stage := .release (some result) } :: closing } []
  | markTerminalRefused {pc : Pc} {owner : TaskOwner} {lifecycle : ExecutionState}
      {result : Outcome} {closing : List Closing} {control : TaskControl} :
      (m.control owner.key).markTerminal lifecycle = (false, control) →
      ThreadStep config m { pc, closing := { owner, stage := .mark lifecycle result } :: closing }
        m { pc, closing := { owner, stage := .release none } :: closing } []
  | release {pc : Pc} {owner : TaskOwner} {result : Outcome} {closing : List Closing} :
      (owner.permit = some .active → m.locked = false) →
      ThreadStep config m
        { pc, closing := { owner, stage := .release (some result) } :: closing }
        (m.dropPermit owner)
        { pc
          closing := { owner := { owner with permit := none }, stage := .publish result } ::
            closing }
        []
  | drop {pc : Pc} {owner : TaskOwner} {closing : List Closing} :
      (owner.permit = some .active → m.locked = false) →
      ThreadStep config m { pc, closing := { owner, stage := .release none } :: closing }
        ((m.dropPermit owner).modify owner.key (·.drop))
        { pc, closing } []
  | publish {pc : Pc} {owner : TaskOwner} {result : Outcome} {closing : List Closing} :
      ThreadStep config m { pc, closing := { owner, stage := .publish result } :: closing }
        (m.modify owner.key (·.publish result)) { pc, closing } []
  | pc {pc : Pc} {m' : Memory} {t' : Thread} {spawned : List Thread} :
      PcStep config m pc m' t' spawned → ThreadStep config m { pc } m' t' spawned

/-- Around the threads: time passes, and callers arrive. A handle exists for every
admitted execution. -/
inductive CallStep (m : Memory) : Memory → List Thread → Prop
  | tick (later : Nat) : m.now ≤ later → CallStep m { m with now := later } []
  | submit (runner : ExecutionBackend) (deadline : Option Nat) :
      CallStep m m [{ pc := .submit runner deadline }]
  | cancel (key : Nat) :
      (m.tasks key).admitted = true → CallStep m m [{ pc := .cancel key .user .handle }]
  | shutdown : CallStep m m [{ pc := .shutdown }]

/-- The executor: memory and threads. -/
abbrev System := Pool Memory Thread

/-- One step of the executor. -/
def SystemStep (config : AdmissionConfig) : System → System → Prop :=
  Pool.Step (ThreadStep config) CallStep

/-- A new executor, without threads. -/
def System.initial : System := { memory := .initial, threads := [] }

/-- The states an executor can reach. -/
def ExecutorReachable (config : AdmissionConfig) (s : System) : Prop :=
  Transition.Reachable (· = System.initial) (SystemStep config) s

end Libdeno.Executor
