import Libdeno.Supervisor.Drivers
import Libdeno.Supervisor.Json
import Libdeno.Supervisor.SessionRuns

/-!
# Libdeno.Supervisor.StartBarrier

Agreement on START: if the parent's `authorize_start` refused, no START is ever
sent and the child never runs user code; the child gets to `Started` through
REQUEST and START alone; and without an authorisation the parent stores no
terminal but the answer to its cancellation.

The invariant has a half for each side. `ParentBarrier` is about the parent's
session, its threads and what was sent to the child; `ChildBarrier` about the
child's session, its threads and what it received. Each half is framed against the
steps of the other side, and the two meet in the channel: what was received was
sent.
-/

namespace Libdeno.Supervisor

open SupervisorParentSession

/-! ### The child's session, one frame at a time -/

/-- A CANCEL never takes a child's session to `Started`. -/
theorem receiveCancel_started {c : SupervisorChildSession} {reason : CancelReason}
    (h : (c.receiveCancel reason).2.state = .started) : c.state = .started := by
  unfold SupervisorChildSession.receiveCancel at h
  split at h
  · split at h <;> exact h
  · split at h
    · cases h
    · cases h
    · cases h
    · exact h

/-- Only a START frame takes a child's session to `Started`. -/
theorem receiveParentFrame_started {json : SerdeJson CancelReason}
    {c : SupervisorChildSession} {frame : SupervisorFrame}
    (h : (c.receiveParentFrame json frame).2.state = .started) :
    c.state = .started ∨ c.state = .awaitStart ∧ frame.kind = .start := by
  unfold SupervisorChildSession.receiveParentFrame at h
  split at h
  · exact .inl h
  split at h
  · split at h
    · exact .inl h
    · cases h
  · next hkind hstate _ => exact .inr ⟨hstate, hkind⟩
  · split at h
    · exact .inl h
    · exact .inl (receiveCancel_started h)
  · exact .inl h

/-- A fresh child accepts nothing but a REQUEST. -/
theorem receiveParentFrame_new {json : SerdeJson CancelReason} {c' : SupervisorChildSession}
    {frame : SupervisorFrame} {event : Option SupervisorFrameEvent}
    (h : SupervisorChildSession.new.receiveParentFrame json frame = (.ok event, c')) :
    frame.kind = .request ∧ frame.requestId ≠ 0 ∧
      c' = { SupervisorChildSession.new with
        requestId := some frame.requestId, state := .awaitStart } := by
  unfold SupervisorChildSession.receiveParentFrame at h
  simp only [SupervisorChildSession.new, Option.any_none, Bool.false_eq_true, if_false] at h
  split at h
  · next hkind _ =>
    split at h
    · simp at h
    · next hid =>
      obtain ⟨-, rfl⟩ := by simpa using h
      exact ⟨hkind, hid, rfl⟩
  · next hstate _ => cases hstate
  · split at h
    · simp at h
    · simp [SupervisorChildSession.receiveCancel] at h
  · simp at h

/-! ### The parent's half -/

/-- What `authorize_start` has answered when the main thread stands at `pc`, where
the position alone tells. -/
def MainPc.decision : MainPc → Option (Option Bool)
  | .handshake | .sendRequest | .writeRequest _ | .readAccepted | .checkDue | .storeDeadline
  | .authorize => some none
  | .writeStart | .spawnWorker => some (some true)
  | .readReason | .sendCancel _ | .writeCancel _ => some (some false)
  | _ => none

/-- No frame in the hands of a parent's thread is a START. -/
def NoStartInHand (s : Parties) : Prop :=
  (∀ frame, s.main = .writeRequest frame → frame.kind ≠ .start) ∧
  (∀ frame, s.main = .writeCancel frame → frame.kind ≠ .start) ∧
  ∀ frame, s.worker = .writeCancel frame → frame.kind ≠ .start

/-- The parent's half of the barrier. -/
structure ParentBarrier (s : Parties) : Prop where
  session : ParentInvariant s.session
  preStart : s.startDecision ≠ some true → PreStart s.session
  decision : ∀ d, s.main.decision = some d → s.startDecision = d
  inHand : NoStartInHand s
  startSent : ∀ frame ∈ s.toChild.sent, frame.kind = .start → s.startDecision = some true

section Parent

variable {Request : Type} {env : DriverEnv Request} {s s' : Parties}

theorem kind_of_new {kind : FrameKind} {requestId : UInt64} {payload : List UInt8}
    {frame : SupervisorFrame} (h : SupervisorFrame.new kind requestId payload = .ok frame) :
    frame.kind = kind := by
  unfold SupervisorFrame.new at h
  split at h
  · cases h
  · obtain rfl := Except.ok.inj h
    rfl

/-- A step of the main thread changes the session by one listed change, which
authorises START only as the decision is recorded. -/
theorem MainStep.session_change (step : MainStep env s s') :
    ∃ b, ParentChange s.session b s'.session ∧ (b = true → s'.startDecision = some true) := by
  have quiet : ∀ {session : SupervisorParentSession}, ParentChange s.session false session →
      ∃ b, ParentChange s.session b session ∧ (b = true → s'.startDecision = some true) :=
    fun change => ⟨false, change, fun h => (nomatch h)⟩
  have receive : ∀ {frame answer session},
      s.session.receiveChildFrame env.terminals frame = (answer, session) →
      ParentChange s.session false session := fun {frame} _ _ h => by
    have change := receiveChildFrame_change s.session env.terminals frame
    rwa [h] at change
  have cancel : ∀ {reason answer session}, s.session.sendCancel reason = (answer, session) →
      ParentChange s.session false session := fun {reason} _ _ h => by
    have change := sendCancel_change s.session reason
    rwa [h] at change
  cases step with
  | hello _ _ _ _ _ hrun =>
      have change := acceptHello_change s.session ‹_› env.token
      rw [hrun] at change
      exact quiet change
  | sendRequest _ _ hrun =>
      have change := sendRequest_change s.session
      rw [hrun] at change
      exact quiet change
  | startAuthorized _ hrun =>
      have change := authorizeStart_change s.session s.context.reason
      rw [hrun] at change
      exact ⟨_, change, fun _ => rfl⟩
  | startRefused _ hrun =>
      have change := authorizeStart_change s.session s.context.reason
      have hrefused : s.session.authorizes s.context.reason = false := by
        rw [← Bool.not_eq_true, ← authorizeStart_eq_true, hrun]
        simp
      rw [hrun, hrefused] at change
      exact quiet change
  | accepted _ _ hrun => exact quiet (receive hrun)
  | readOn _ _ hrun _ => exact quiet (receive hrun)
  | readTerminal _ _ hrun _ => exact quiet (receive hrun)
  | duplicate _ _ hrun => exact quiet (receive hrun)
  | rejects _ _ hrun _ => exact quiet (receive hrun)
  | sendCancel _ hrun _ _ => exact quiet (cancel hrun)
  | sendCancelUnencodable _ hrun _ => exact quiet (cancel hrun)
  | sendCancelSkipped _ hrun => exact quiet (cancel hrun)
  | sendCancelRejected _ hrun => exact quiet (cancel hrun)
  | _ => exact quiet .unchanged

theorem WorkerStep.session_change (step : WorkerStep env s s') :
    ParentChange s.session false s'.session := by
  have cancel : ∀ {reason answer session}, s.session.sendCancel reason = (answer, session) →
      ParentChange s.session false session := fun {reason} _ _ h => by
    have change := sendCancel_change s.session reason
    rwa [h] at change
  cases step with
  | sendCancel _ hrun _ _ => exact cancel hrun
  | sendCancelUnencodable _ hrun _ => exact cancel hrun
  | sendCancelSkipped _ hrun => exact cancel hrun
  | sendCancelRejected _ hrun => exact cancel hrun
  | _ => exact .unchanged

/-- The decision is taken once, at `authorize_start`. -/
theorem MainStep.decision_stable (step : MainStep env s s')
    (known : ∀ d, s.main.decision = some d → s.startDecision = d) :
    (∀ d, s'.main.decision = some d → s'.startDecision = d) ∧
      (s.startDecision ≠ none → s'.startDecision = s.startDecision) := by
  cases step with
  | writeRequest result | writeStart result | writeCancel result =>
      cases result <;> simp_all [MainPc.decision, WriteResult.ok]
  | _ => simp_all [MainPc.decision]

theorem WriteResult.deliver_sent (result : WriteResult) (channel : Channel SupervisorFrame)
    (frame : SupervisorFrame) :
    (result.deliver channel frame).sent = channel.sent ∨
      (result.deliver channel frame).sent = channel.sent ++ [frame] := by
  cases result <;> simp [WriteResult.deliver]

@[simp] theorem WriteResult.deliver_delivered (result : WriteResult)
    (channel : Channel SupervisorFrame) (frame : SupervisorFrame) :
    (result.deliver channel frame).delivered = channel.delivered := by
  cases result <;> simp [WriteResult.deliver]

/-- What a step of the main thread sends: nothing, or one frame, which is a START
only from `writeStart`. -/
theorem MainStep.toChild_sent (step : MainStep env s s') (hand : NoStartInHand s) :
    s'.toChild.sent = s.toChild.sent ∨
      ∃ frame, s'.toChild.sent = s.toChild.sent ++ [frame] ∧
        (frame.kind = .start → s.main = .writeStart) := by
  have write : ∀ (result : WriteResult) (frame : SupervisorFrame),
      (frame.kind = .start → s.main = .writeStart) →
      (result.deliver s.toChild frame).sent = s.toChild.sent ∨
        ∃ frame', (result.deliver s.toChild frame).sent = s.toChild.sent ++ [frame'] ∧
          (frame'.kind = .start → s.main = .writeStart) := by
    intro result frame hkind
    rcases result.deliver_sent s.toChild frame with h | h
    · exact .inl h
    · exact .inr ⟨frame, h, hkind⟩
  cases step with
  | writeRequest result hmain =>
      exact write result _ fun hkind => absurd hkind (hand.1 _ hmain)
  | writeStart result hmain _ => exact write result _ fun _ => hmain
  | writeCancel result hmain =>
      exact write result _ fun hkind => absurd hkind (hand.2.1 _ hmain)
  | _ => exact .inl rfl

theorem MainStep.inHand (step : MainStep env s s') (hand : NoStartInHand s) :
    NoStartInHand s' := by
  obtain ⟨hrequest, hcancel, hworker⟩ := hand
  cases step with
  | sendRequest _ hnew _ => 
      have hkind := kind_of_new hnew
      refine ⟨fun frame h => ?_, fun frame h => (nomatch h), hworker⟩
      cases h
      simp [hkind]
  | sendCancel _ _ _ hnew =>
      have hkind := kind_of_new hnew
      refine ⟨fun frame h => (nomatch h), fun frame h => ?_, hworker⟩
      cases h
      simp [hkind]
  | writeRequest result | writeStart result | writeCancel result =>
      cases result <;> simp_all [NoStartInHand, WriteResult.ok]
  | _ => simp_all [NoStartInHand]

/-- The parent's half is kept by the main thread. -/
theorem MainStep.parentBarrier (step : MainStep env s s') (inv : ParentBarrier s) :
    ParentBarrier s' := by
  obtain ⟨b, change, hauthorised⟩ := step.session_change
  obtain ⟨hdecision, hstable⟩ := step.decision_stable inv.decision
  have hkept : s.startDecision = some true → s'.startDecision = some true := fun h => by
    rw [hstable (by simp [h]), h]
  refine ⟨change.invariant inv.session, fun hne => ?_, hdecision, step.inHand inv.inHand, ?_⟩
  · cases b with
    | true => exact absurd (hauthorised rfl) hne
    | false => exact change.preStart inv.session (inv.preStart fun h => hne (hkept h))
  · intro frame hframe hkind
    rcases step.toChild_sent inv.inHand with hsent | ⟨frame', hsent, hstart⟩
    · rw [hsent] at hframe
      exact hkept (inv.startSent frame hframe hkind)
    · rw [hsent, List.mem_append, List.mem_singleton] at hframe
      rcases hframe with hframe | rfl
      · exact hkept (inv.startSent frame hframe hkind)
      · exact hkept (inv.decision _ (by rw [hstart hkind]; rfl))

/-- The parent's half is kept by the control worker. -/
theorem WorkerStep.parentBarrier (step : WorkerStep env s s') (inv : ParentBarrier s) :
    ParentBarrier s' := by
  have change := step.session_change
  obtain ⟨hrequest, hcancel, hworker⟩ := inv.inHand
  have hmain : s'.main = s.main := by cases step <;> rfl
  have hdecision : s'.startDecision = s.startDecision := by cases step <;> rfl
  refine ⟨change.invariant inv.session, ?_, ?_, ⟨?_, ?_, ?_⟩, ?_⟩
  · rw [hdecision]
    exact fun hne => change.preStart inv.session (inv.preStart hne)
  · rw [hmain, hdecision]
    exact inv.decision
  · rw [hmain]
    exact hrequest
  · rw [hmain]
    exact hcancel
  · intro frame h
    cases step with
    | sendCancel _ _ _ hnew =>
        cases h
        simp [kind_of_new hnew]
    | poll | checkSeen | recheckSeen => split at h <;> cases h
    | writeCancel result => cases result <;> cases h
    | _ => cases h
  · rw [hdecision]
    cases step with
    | writeCancel result hwrites =>
        intro frame hframe hkind
        rcases result.deliver_sent s.toChild _ with hsent | hsent
        · exact inv.startSent frame (hsent ▸ hframe) hkind
        · dsimp only at hframe
          rw [hsent, List.mem_append, List.mem_singleton] at hframe
          rcases hframe with hframe | rfl
          · exact inv.startSent frame hframe hkind
          · exact absurd hkind (hworker _ hwrites)
    | _ => exact inv.startSent

end Parent

/-! ### The child's half -/

/-- The child is past its START barrier and before its TERMINAL: user code may run. -/
def ChildPc.pastBarrier : ChildPc → Bool
  | .startControl | .writeStarted | .running | .stopControl _ | .joinControl _
  | .decide _ => true
  | _ => false

/-- REQUEST and START, in this order, came before anything else. -/
def ReceivedStart (received : List SupervisorFrame) : Prop :=
  ∃ request start rest, received = request :: start :: rest ∧
    request.kind = .request ∧ start.kind = .start

theorem ReceivedStart.append {received : List SupervisorFrame} (h : ReceivedStart received)
    (more : List SupervisorFrame) : ReceivedStart (received ++ more) := by
  obtain ⟨request, start, rest, rfl, hrequest, hstart⟩ := h
  exact ⟨request, start, rest ++ more, rfl, hrequest, hstart⟩

/-- How far the child's main thread has read, as long as it reads. -/
def ChildReads (s : Parties) : Prop :=
  match s.childMain with
  | .writeHello | .readRequest => s.toChild.delivered = [] ∧ s.child = .new
  | .writeAccepted | .readNext =>
      ∃ request, s.toChild.delivered = [request] ∧ request.kind = .request
  | _ => True

/-- The child's half of the barrier. -/
structure ChildBarrier (s : Parties) : Prop where
  reads : ChildReads s
  started : s.startedReached = true → ReceivedStart s.toChild.delivered
  session : s.child.state = .started → s.startedReached = true
  main : s.childMain.pastBarrier = true → s.startedReached = true
  control : s.control ≠ .absent → s.startedReached = true

section Child

variable {Request : Type} {env : DriverEnv Request} {s s' : Parties}

/-- The half depends on the child's side and on what was delivered to it. -/
theorem ChildBarrier.congr (inv : ChildBarrier s) (hmain : s'.childMain = s.childMain)
    (hchild : s'.child = s.child) (hcontrol : s'.control = s.control)
    (hreached : s'.startedReached = s.startedReached)
    (hdelivered : s'.toChild.delivered = s.toChild.delivered) : ChildBarrier s' := by
  obtain ⟨hreads, hstarted, hsession, hpast, hctl⟩ := inv
  constructor
  · unfold ChildReads at hreads ⊢
    rwa [hmain, hdelivered, hchild]
  · rwa [hreached, hdelivered]
  · rwa [hchild, hreached]
  · rwa [hmain, hreached]
  · rwa [hcontrol, hreached]

theorem MainStep.childBarrier (step : MainStep env s s') (inv : ChildBarrier s) :
    ChildBarrier s' := by
  cases step <;> exact inv.congr rfl rfl rfl rfl (by simp)

theorem WorkerStep.childBarrier (step : WorkerStep env s s') (inv : ChildBarrier s) :
    ChildBarrier s' := by
  cases step <;> exact inv.congr rfl rfl rfl rfl (by simp)

theorem EnvironmentStep.childBarrier (step : EnvironmentStep s s') (inv : ChildBarrier s) :
    ChildBarrier s' := by
  cases step <;> exact inv.congr rfl rfl rfl rfl rfl

/-- A frame handed to the child's session: `Started` was there before, or the frame
is the START after the REQUEST. -/
theorem ChildBarrier.receive (inv : ChildBarrier s) {frame : SupervisorFrame}
    {toChild : Channel SupervisorFrame} {child : SupervisorChildSession}
    {answer : Except IoError (Option SupervisorFrameEvent)}
    (hmain : s.childMain = .readRequest ∨ s.childMain = .readNext)
    (hpop : s.toChild.pop = some (frame, toChild))
    (hrun : s.child.receiveParentFrame env.reasons frame = (answer, child))
    (h : (s.withChild child).startedReached = true) : ReceivedStart toChild.delivered := by
  have hdelivered := Channel.delivered_of_pop hpop
  by_cases hbefore : s.startedReached = true
  · rw [hdelivered]
    exact (inv.started hbefore).append _
  have hstate : child.state = .started := by simpa [Parties.withChild, hbefore] using h
  have hnow : (s.child.receiveParentFrame env.reasons frame).2.state = .started := by
    rw [hrun]
    exact hstate
  have hstart : s.child.state = .awaitStart ∧ frame.kind = .start :=
    (receiveParentFrame_started hnow).resolve_left fun h => hbefore (inv.session h)
  have hreads := inv.reads
  unfold ChildReads at hreads
  rcases hmain with hmain | hmain
  · rw [hmain] at hreads
    rw [hreads.2] at hstart
    cases hstart.1
  · rw [hmain] at hreads
    obtain ⟨request, hrequest, hkind⟩ := hreads
    rw [hdelivered, hrequest]
    exact ⟨request, frame, [], rfl, hkind, hstart.2⟩

/-- The half after the child's main thread handed a frame to the session. -/
theorem ChildBarrier.received (inv : ChildBarrier s) {frame : SupervisorFrame}
    {toChild : Channel SupervisorFrame} {child : SupervisorChildSession}
    {answer : Except IoError (Option SupervisorFrameEvent)} {pc : ChildPc}
    (hmain : s.childMain = .readRequest ∨ s.childMain = .readNext)
    (hpop : s.toChild.pop = some (frame, toChild))
    (hrun : s.child.receiveParentFrame env.reasons frame = (answer, child))
    (hreads : ChildReads { s.withChild child with toChild, childMain := pc })
    (hpast : pc.pastBarrier = true → child.state = .started) :
    ChildBarrier { s.withChild child with toChild, childMain := pc } where
  reads := hreads
  started := inv.receive hmain hpop hrun
  session h := by simpa [Parties.withChild] using Or.inr h
  main h := by simpa [Parties.withChild] using Or.inr (hpast h)
  control h := by simpa [Parties.withChild] using Or.inl (inv.control h)

theorem receiveParentFrame_event {json : SerdeJson CancelReason}
    {c c' : SupervisorChildSession} {frame : SupervisorFrame}
    (h : c.receiveParentFrame json frame = (.ok (some .started), c')) :
    c'.state = .started := by
  unfold SupervisorChildSession.receiveParentFrame at h
  split at h
  · simp at h
  split at h
  · split at h <;> simp at h
  · obtain ⟨-, rfl⟩ := by simpa using h
    rfl
  · split at h
    · simp at h
    · unfold SupervisorChildSession.receiveCancel at h
      split at h
      · split at h <;> simp at h
      · split at h <;> simp at h
  · simp at h

theorem markTerminal_started {c : SupervisorChildSession} {terminal : SupervisorTerminal}
    (h : (c.markTerminal terminal).2.state = .started) : c.state = .started := by
  have change := markTerminal_change c terminal
  unfold SupervisorChildSession.markTerminal at h
  split at h
  · exact h
  split at h
  · split at h <;> exact h
  · split at h
    · cases h
    · cases h
    · exact h

/-- The child's half is kept by the child's main thread. -/
theorem ChildStep.childBarrier (step : ChildStep env s s') (inv : ChildBarrier s) :
    ChildBarrier s' := by
  have hreads := inv.reads
  have hpast := inv.main
  unfold ChildReads at hreads
  -- A step that neither reads nor touches the session.
  have moves : ∀ {t : Parties}, t.child = s.child → t.toChild = s.toChild →
      t.startedReached = s.startedReached →
      (t.control = s.control ∨ t.startedReached = true) → ChildReads t →
      (t.childMain.pastBarrier = true → s.startedReached = true) → ChildBarrier t := by
    intro t hchild hchannel hreached hcontrol hreads' hpast'
    refine ⟨hreads', ?_, ?_, ?_, fun h => ?_⟩
    · rw [hreached, hchannel]
      exact inv.started
    · rw [hreached, hchild]
      exact inv.session
    · rw [hreached]
      exact hpast'
    · rcases hcontrol with hcontrol | hcontrol
      · rw [hreached]
        exact inv.control (hcontrol ▸ h)
      · exact hcontrol
  -- `mark_terminal` never enters `Started`.
  have marks : ∀ {terminal : SupervisorTerminal} {answer : Except IoError Bool}
      {child : SupervisorChildSession} {pc : ChildPc},
      s.child.markTerminal terminal = (answer, child) →
      ChildReads { s.withChild child with childMain := pc } →
      (pc.pastBarrier = true → s.startedReached = true) →
      ChildBarrier { s.withChild child with childMain := pc } := by
    intro terminal answer child pc hmark hreads' hpast'
    have hbefore : child.state = .started → s.startedReached = true := fun h =>
      inv.session (markTerminal_started (by rw [hmark]; exact h))
    have hreached : (s.withChild child).startedReached = s.startedReached := by
      cases hs : s.startedReached <;> simp_all [Parties.withChild]
    refine ⟨hreads', ?_, fun h => ?_, fun h => ?_, fun h => ?_⟩
    · rw [hreached]
      exact inv.started
    · rw [hreached]
      exact hbefore h
    · rw [hreached]
      exact hpast' h
    · rw [hreached]
      exact inv.control h
  cases step with
  | writeHello result hmain _ =>
      rw [hmain] at hreads
      -- Written, the thread reads on with what it had; failed, it exits and reads no more.
      cases result with
      | sent => exact moves rfl rfl rfl (.inl rfl) hreads fun h => (nomatch h)
      | failedAfter => exact moves rfl rfl rfl (.inl rfl) trivial fun h => (nomatch h)
      | failedBefore => exact moves rfl rfl rfl (.inl rfl) trivial fun h => (nomatch h)
  | request hmain hpop hrun _ _ =>
      rw [hmain] at hreads
      obtain ⟨hdelivered, hnew⟩ := hreads
      rw [hnew] at hrun
      have hkind := (receiveParentFrame_new hrun).1
      refine inv.received (.inl hmain) hpop (hnew ▸ hrun) ⟨_, ?_, hkind⟩ fun h => (nomatch h)
      rw [Channel.delivered_of_pop hpop, hdelivered, List.nil_append]
  | requestRejected hmain hpop hrun _ =>
      exact inv.received (.inl hmain) hpop hrun trivial fun h => (nomatch h)
  | writeAccepted result hmain _ _ =>
      rw [hmain] at hreads
      cases result with
      | sent => exact moves rfl rfl rfl (.inl rfl) hreads fun h => (nomatch h)
      | failedAfter => exact moves rfl rfl rfl (.inl rfl) trivial fun h => (nomatch h)
      | failedBefore => exact moves rfl rfl rfl (.inl rfl) trivial fun h => (nomatch h)
  | cancelled hmain hpop hrun _ =>
      exact inv.received (.inr hmain) hpop hrun trivial fun h => (nomatch h)
  | started hmain hpop hrun _ =>
      exact inv.received (.inr hmain) hpop hrun trivial fun _ => receiveParentFrame_event hrun
  | barrierUnsatisfied hmain hpop hrun _ =>
      exact inv.received (.inr hmain) hpop hrun trivial fun h => (nomatch h)
  | startControl hmain =>
      have hreached := hpast (by rw [hmain]; rfl)
      exact moves rfl rfl rfl (.inr hreached) trivial fun _ => hreached
  | writeStarted result hmain _ _ =>
      have hreached := hpast (by rw [hmain]; rfl)
      refine moves rfl rfl rfl (.inl rfl) ?_ fun _ => hreached
      cases result <;> trivial
  | finish result hmain =>
      exact moves rfl rfl rfl (.inl rfl) trivial fun _ => hpast (by rw [hmain]; rfl)
  | stopControl hmain =>
      exact moves rfl rfl rfl (.inl rfl) trivial fun _ => hpast (by rw [hmain]; rfl)
  | joinControl hmain _ =>
      exact moves rfl rfl rfl (.inl rfl) trivial fun _ => hpast (by rw [hmain]; rfl)
  | decide hmain => exact moves rfl rfl rfl (.inl rfl) trivial fun h => (nomatch h)
  | markTerminal _ hmark _ _ _ => exact marks hmark trivial fun h => (nomatch h)
  | markTerminalFails _ hmark _ => exact marks hmark trivial fun h => (nomatch h)
  | writeTerminal result hmain =>
      exact moves rfl rfl rfl (.inl rfl) trivial fun h => (nomatch h)
  | fails hmain => exact moves rfl rfl rfl (.inl rfl) trivial fun h => (nomatch h)

/-- Once `Started` was reached, the main thread reads no more. -/
theorem ChildBarrier.reads_done (inv : ChildBarrier s) (reached : s.startedReached = true)
    (hmain : s'.childMain = s.childMain) : ChildReads s' := by
  obtain ⟨request, start, rest, hdelivered, -, -⟩ := inv.started reached
  have hreads := inv.reads
  unfold ChildReads at hreads ⊢
  rw [hmain]
  cases hpc : s.childMain <;> simp_all

/-- The child's half is kept by the control reader, which runs past the barrier
only: what it reads comes after START. -/
theorem ControlStep.childBarrier (step : ControlStep env s s') (inv : ChildBarrier s) :
    ChildBarrier s' := by
  have hreached : s.startedReached = true := by
    refine inv.control fun habsent => ?_
    cases step <;> simp_all
  have hmain : s'.childMain = s.childMain := by cases step <;> rfl
  have hchild : s'.child = s.child := by cases step <;> rfl
  have hstable : s'.startedReached = s.startedReached := by cases step <;> rfl
  have hdelivered : ∃ more, s'.toChild.delivered = s.toChild.delivered ++ more := by
    cases step with
    | cancel _ hpop _ => exact ⟨_, Channel.delivered_of_pop hpop⟩
    | invalid _ hpop _ => exact ⟨_, Channel.delivered_of_pop hpop⟩
    | _ => exact ⟨[], (List.append_nil _).symm⟩
  have reached : s'.startedReached = true := hstable.trans hreached
  refine ⟨inv.reads_done hreached hmain, fun _ => ?_, fun _ => reached, fun _ => reached,
    fun _ => reached⟩
  obtain ⟨more, hmore⟩ := hdelivered
  rw [hmore]
  exact (inv.started hreached).append more

end Child

/-! ### Every interleaving -/

/-- Both halves of the barrier. -/
structure Barrier (s : Parties) : Prop where
  parent : ParentBarrier s
  child : ChildBarrier s

section Runs

variable {Request : Type} {env : DriverEnv Request} {s s' : Parties}

theorem Barrier.initial : Barrier .initial where
  parent :=
    { session := .new _
      preStart := fun _ => .new _
      decision := fun d h => by simpa [Parties.initial, MainPc.decision] using h
      inHand := ⟨fun _ h => (nomatch h), fun _ h => (nomatch h), fun _ h => (nomatch h)⟩
      startSent := fun frame h => by simp [Parties.initial] at h }
  child :=
    { reads := ⟨rfl, rfl⟩
      started := fun h => (nomatch h)
      session := fun h => (nomatch h)
      main := fun h => (nomatch h)
      control := fun h => absurd rfl h }

/-- The parent's half depends on the parent's side and on what was sent. -/
theorem ParentBarrier.congr (inv : ParentBarrier s) (hsession : s'.session = s.session)
    (hmain : s'.main = s.main) (hworker : s'.worker = s.worker)
    (hdecision : s'.startDecision = s.startDecision) (hsent : s'.toChild.sent = s.toChild.sent) :
    ParentBarrier s' := by
  obtain ⟨h₁, h₂, h₃, h₄, h₅⟩ := inv
  unfold NoStartInHand at h₄
  constructor
  · rwa [hsession]
  · rwa [hdecision, hsession]
  · rwa [hmain, hdecision]
  · unfold NoStartInHand
    rwa [hmain, hworker]
  · rwa [hsent, hdecision]

theorem ChildStep.toChild_sent (step : ChildStep env s s') :
    s'.toChild.sent = s.toChild.sent := by
  cases step with
  | request _ hpop _ _ _ => exact Channel.sent_of_pop hpop
  | requestRejected _ hpop _ _ => exact Channel.sent_of_pop hpop
  | cancelled _ hpop _ _ => exact Channel.sent_of_pop hpop
  | started _ hpop _ _ => exact Channel.sent_of_pop hpop
  | barrierUnsatisfied _ hpop _ _ => exact Channel.sent_of_pop hpop
  | _ => rfl

theorem ControlStep.toChild_sent (step : ControlStep env s s') :
    s'.toChild.sent = s.toChild.sent := by
  cases step with
  | cancel _ hpop _ => exact Channel.sent_of_pop hpop
  | invalid _ hpop _ => exact Channel.sent_of_pop hpop
  | _ => rfl

theorem ChildStep.parentBarrier (step : ChildStep env s s') (inv : ParentBarrier s) :
    ParentBarrier s' := by
  have hsent := step.toChild_sent
  cases step <;> exact inv.congr rfl rfl rfl rfl hsent

theorem ControlStep.parentBarrier (step : ControlStep env s s') (inv : ParentBarrier s) :
    ParentBarrier s' := by
  have hsent := step.toChild_sent
  cases step <;> exact inv.congr rfl rfl rfl rfl hsent

theorem EnvironmentStep.parentBarrier (step : EnvironmentStep s s') (inv : ParentBarrier s) :
    ParentBarrier s' := by
  cases step <;> exact inv.congr rfl rfl rfl rfl rfl

/-- Every step of every party keeps the barrier. -/
theorem DriverStep.barrier (step : DriverStep env s s') (inv : Barrier s) : Barrier s' := by
  cases step with
  | main h => exact ⟨h.parentBarrier inv.parent, h.childBarrier inv.child⟩
  | worker h => exact ⟨h.parentBarrier inv.parent, h.childBarrier inv.child⟩
  | child h => exact ⟨h.parentBarrier inv.parent, h.childBarrier inv.child⟩
  | control h => exact ⟨h.parentBarrier inv.parent, h.childBarrier inv.child⟩
  | environment h => exact ⟨h.parentBarrier inv.parent, h.childBarrier inv.child⟩

theorem DriverReachable.barrier (h : DriverReachable env s) : Barrier s :=
  Transition.Reachable.invariant (fun _ h => h ▸ Barrier.initial)
    (fun _ _ inv step => step.barrier inv) h

/-- The decision on START is final. -/
theorem DriverStep.decision_stable (step : DriverStep env s s') (inv : Barrier s)
    (decided : s.startDecision ≠ none) : s'.startDecision = s.startDecision := by
  cases step with
  | main h => exact (h.decision_stable inv.parent.decision).2 decided
  | worker h => cases h <;> rfl
  | child h => cases h <;> rfl
  | control h => cases h <;> rfl
  | environment h => cases h <;> rfl

theorem Barrier.run_decision (inv : Barrier s) (run : Transition.Run (DriverStep env) s s')
    (decided : s.startDecision ≠ none) : s'.startDecision = s.startDecision := by
  have h : Barrier s' ∧ s'.startDecision = s.startDecision := by
    refine Transition.Run.invariant (P := fun t => Barrier t ∧ t.startDecision = s.startDecision)
      ?_ run ⟨inv, rfl⟩
    rintro t t' ⟨hinv, hdecision⟩ step
    refine ⟨step.barrier hinv, ?_⟩
    rw [step.decision_stable hinv (hdecision ▸ decided), hdecision]
  exact h.2

/-- Without an authorisation nothing was started. -/
theorem Barrier.not_started (inv : Barrier s) (h : s.startDecision ≠ some true) :
    (∀ frame ∈ s.toChild.sent, frame.kind ≠ .start) ∧ s.startedReached = false := by
  have hsent : ∀ frame ∈ s.toChild.sent, frame.kind ≠ .start := fun frame hframe hkind =>
    h (inv.parent.startSent frame hframe hkind)
  refine ⟨hsent, ?_⟩
  rw [← Bool.not_eq_true]
  intro hreached
  obtain ⟨request, start, rest, hdelivered, -, hkind⟩ := inv.child.started hreached
  have hmem : start ∈ s.toChild.delivered := by simp [hdelivered]
  exact hsent start (s.toChild.delivered_prefix.subset hmem) hkind

/-- **START barrier.** In every state the drivers can reach: a refused START is
never sent and the child never gets to `Started` or to user code, now or later; a
child gets there only through REQUEST and then START, with nothing before them; and
a parent session that never authorised START stores no terminal but the outcome of
its recorded cancellation. -/
theorem start_barrier {Request : Type} (env : DriverEnv Request) (s : Parties)
    (reachable : DriverReachable env s) :
    (s.startDecision = some false → ∀ s', Transition.Run (DriverStep env) s s' →
      (∀ frame ∈ s'.toChild.sent, frame.kind ≠ .start) ∧ s'.startedReached = false ∧
        s'.child.state ≠ .started ∧ s'.childMain.pastBarrier = false) ∧
    ((s.startedReached = true ∨ s.child.state = .started ∨ s.childMain.pastBarrier = true) →
      ∃ request start rest, s.toChild.delivered = request :: start :: rest ∧
        request.kind = .request ∧ start.kind = .start) ∧
    (s.startDecision ≠ some true → ∀ terminal, s.session.terminal = some terminal →
      ∃ reason, s.session.cancelReason = some reason ∧
        terminal.outcome = preStartOutcome reason) := by
  have inv := reachable.barrier
  refine ⟨fun hrefused s' run => ?_, fun hstarted => ?_, fun hnever terminal hterminal => ?_⟩
  · have inv' : Barrier s' := DriverReachable.barrier (Transition.Reachable.run reachable run)
    have hdecision : s'.startDecision = some false := by
      rw [inv.run_decision run (by simp [hrefused]), hrefused]
    obtain ⟨hsent, hreached⟩ := inv'.not_started (by simp [hdecision])
    have hfalse : s'.startedReached ≠ true := by simp [hreached]
    refine ⟨hsent, hreached, fun h => hfalse (inv'.child.session h), ?_⟩
    rw [← Bool.not_eq_true]
    exact fun h => hfalse (inv'.child.main h)
  · refine inv.child.started ?_
    rcases hstarted with h | h | h
    · exact h
    · exact inv.child.session h
    · exact inv.child.main h
  · exact (inv.parent.preStart hnever).2 terminal hterminal

end Runs

/-! ### A refused run -/

/-- A run of the canonical JSON, of a request without fields. -/
def sampleEnv : DriverEnv Unit where
  terminals := jsonTerminals
  reasons := jsonReasons
  requests := { toVec := fun _ => .ok [], fromSlice := fun _ => .ok () }
  token := { bytes := List.replicate 16 7, length_eq := rfl }
  requestPayload := []
  deadline := none
  defaultReason := .user

/-- The parties after a shutdown was recorded while ACCEPTED was on its way. -/
def sampleRefused : Parties :=
  { Parties.initial with
    context := { requested := false, reason := some .shutdown }
    session :=
      { SupervisorParentSession.new supervisorRequestId with
        state := .cancellingBeforeStart, requestSent := true, cancelReason := some .shutdown }
    child :=
      { SupervisorChildSession.new with
        requestId := some supervisorRequestId, state := .awaitStart }
    toChild :=
      { delivered := [{ kind := .request, requestId := supervisorRequestId, payload := [] }]
        inFlight := [] }
    toParent :=
      { delivered :=
          [{ kind := .hello, requestId := 0, payload := List.replicate 16 7 },
            { kind := .accepted, requestId := supervisorRequestId, payload := [] }]
        inFlight := [] }
    main := .readReason
    childMain := .readNext
    startDecision := some false }

theorem sampleRefused_reachable : DriverReachable sampleEnv sampleRefused := by
  refine ⟨Parties.initial, rfl, ?_⟩
  refine .head (.child (.writeHello .sent rfl rfl)) ?_
  refine .head (.main (.hello rfl rfl (by decide) rfl rfl rfl)) ?_
  refine .head (.main (.sendRequest rfl rfl rfl)) ?_
  refine .head (.main (.writeRequest .sent rfl)) ?_
  refine .head (.child (.request rfl rfl rfl rfl (by decide))) ?_
  refine .head (.child (.writeAccepted .sent rfl rfl rfl)) ?_
  refine .head (.environment (.recordReason .shutdown)) ?_
  refine .head (.main (.accepted rfl rfl rfl)) ?_
  refine .head (.main (.notDue rfl (.inl (by decide)))) ?_
  refine .single (.main (.startRefused rfl rfl))

/-- The barrier holds the child of the refused run back for good. -/
theorem start_barrier_refused :
    sampleRefused.startDecision = some false ∧
      ∀ s', Transition.Run (DriverStep sampleEnv) sampleRefused s' →
        (∀ frame ∈ s'.toChild.sent, frame.kind ≠ .start) ∧ s'.startedReached = false ∧
          s'.child.state ≠ .started ∧ s'.childMain.pastBarrier = false :=
  ⟨rfl, (start_barrier sampleEnv sampleRefused sampleRefused_reachable).1 rfl⟩

end Libdeno.Supervisor
