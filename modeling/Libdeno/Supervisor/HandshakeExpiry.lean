import Libdeno.Library.Pool
import Libdeno.Library.Transition
import Libdeno.Supervisor.Codec
import Libdeno.Supervisor.Json
import Libdeno.Supervisor.ParentSession
import Libdeno.Supervisor.RunResult

/-!
# Libdeno.Supervisor.HandshakeExpiry

The handshake of `drive_supervisor_session`, from waiting for a peer to writing START, and
the failure category of a run whose handshake fails. Peers come, stay silent or are dropped,
the clock moves, and others may request a cancellation at any time, with its two writes
apart.

The handshake notices in four ways that the time is up, and the category is computed later
from the error and the cancellation context. `handshake_expiry` says for which of them it is
`Timeout`: the check at the top of the accept loop answers with a plain runtime error and
records nothing.
-/

namespace Libdeno.Supervisor

open Transition

/-- `SUPERVISOR_CONNECT_TIMEOUT`, in milliseconds. -/
def supervisorConnectTimeout : Nat := 5000

/-- `PEER_HELLO_TIMEOUT`. -/
def peerHelloTimeout : Nat := 1000

/-- The arguments of `drive_supervisor_session`, the clock at its start and the serialiser. -/
structure HandshakeConfig where
  start : Nat
  deadline : Option Nat
  token : SupervisorToken
  requestPayload : List UInt8
  json : SerdeJson SupervisorTerminal

/-- `handshake_deadline`. -/
def HandshakeConfig.handshakeDeadline (config : HandshakeConfig) : Nat :=
  match config.deadline with
  | none => config.start + supervisorConnectTimeout
  | some deadline => min deadline (config.start + supervisorConnectTimeout)

/-- `phase_frame_deadline`. -/
def HandshakeConfig.phaseFrameDeadline (config : HandshakeConfig) (now : Nat) : Nat :=
  match config.deadline with
  | none => now + supervisorFrameTimeout
  | some deadline => min deadline (now + supervisorFrameTimeout)

/-- `deadline.is_some_and(|at| at <= now)`. -/
def HandshakeConfig.due (config : HandshakeConfig) (now : Nat) : Bool :=
  config.deadline.any (· ≤ now)

/-- How the handshake learns that the time is up. -/
inductive Notice
  /-- `accept_supervisor_peer` finds no peer and no time left. -/
  | accepting
  /-- The check at the top of the accept loop. -/
  | loopTop
  /-- A frame times out while it is written or read. -/
  | frame
  /-- Somebody else's cancellation. -/
  | cancelled
  deriving DecidableEq

/-- Where the thread that drives the session stands. -/
inductive HandshakePc
  | top
  | clock
  /-- `accept_supervisor_peer`, before it looks at the context. -/
  | poll
  | listen
  | blocked
  | acceptDue
  /-- Reading the HELLO of a candidate. -/
  | hello (peerDeadline : Nat)
  | request (frameDeadline : Nat)
  | accepted (frameDeadline : Nat)
  /-- `cancellation_reason_if_due`. -/
  | due
  | authorize
  | start (frameDeadline : Nat)
  | frameDue
  /-- The two writes of `cancellation.request(CancelReason::Deadline)`. -/
  | insertDeadline (next : HandshakePc)
  | storeDeadline (next : HandshakePc)
  | answered
  | failed (error : LibdenoError) (notice : Option Notice)

/-- A call of `request_with_reason` by somebody else. -/
inductive Requester
  | insert (reason : CancelReason)
  | store
  | returned

/-- What the handshake works on. -/
structure Handshake where
  context : CancellationContext
  now : Nat
  session : SupervisorParentSession
  pc : HandshakePc

abbrev HandshakeSystem := Pool Handshake Requester

/-! ### The errors -/

def handshakeCancelled : LibdenoError :=
  .io { kind := .interrupted, message := "supervisor handshake cancelled" }

def handshakeExpired : LibdenoError :=
  supervisorError
    "supervisor handshake deadline exceeded while waiting for an authenticated peer"

/-- `{reason:?}`. -/
def debugReason : CancelReason → String
  | .user => "User"
  | .deadline => "Deadline"
  | .shutdown => "Shutdown"

def connectionCancelled (reason : CancelReason) : LibdenoError :=
  .io { kind := .interrupted,
        message := "supervisor connection cancelled (" ++ debugReason reason ++ ")" }

def connectExpired : LibdenoError :=
  .io { kind := .timedOut, message := "supervisor connect deadline exceeded" }

def frameExpired : LibdenoError :=
  .io { kind := .timedOut, message := "supervisor frame deadline exceeded" }

def frameCancelled : LibdenoError :=
  .io { kind := .interrupted, message := "supervisor cancellation requested" }

/-! ### The handshake -/

/-- The candidate's HELLO is the child's. -/
def HandshakeConfig.authentic (config : HandshakeConfig) (hello : SupervisorFrame) : Bool :=
  config.token.authenticate hello.payload && hello.kind = .hello && hello.requestId = 0

/-- From the accepted HELLO to the REQUEST that is about to be written. -/
def HandshakeConfig.beginRequest (config : HandshakeConfig) (hello : SupervisorFrame) :
    Except LibdenoError SupervisorParentSession :=
  match (SupervisorParentSession.new supervisorRequestId).acceptHello hello config.token with
  | (.error error, _) => .error (.io error)
  | (.ok (), session) =>
      match SupervisorFrame.new .request supervisorRequestId config.requestPayload with
      | .error error => .error (.io error)
      | .ok _ =>
          match session.sendRequest with
          | (.error error, _) => .error (.io error)
          | (.ok (), session) => .ok session

/-- The frame a phase of the handshake is at, and the deadline it has. -/
def HandshakePc.frameDeadline? : HandshakePc → Option Nat
  | .request frameDeadline | .accepted frameDeadline | .start frameDeadline =>
      some frameDeadline
  | _ => none

/-- A step of `drive_supervisor_session` up to the child's answer. -/
inductive HandshakeStep (config : HandshakeConfig) (m : Handshake) : Handshake → Prop
  | topCancelled {reason : CancelReason} : m.pc = .top → m.context.reason = some reason →
      HandshakeStep config m { m with pc := .failed handshakeCancelled (some .cancelled) }
  | topProceeds : m.pc = .top → m.context.reason = none →
      HandshakeStep config m { m with pc := .clock }
  | topExpired : m.pc = .clock → config.handshakeDeadline ≤ m.now →
      HandshakeStep config m { m with pc := .failed handshakeExpired (some .loopTop) }
  | accept : m.pc = .clock → m.now < config.handshakeDeadline →
      HandshakeStep config m { m with pc := .poll }
  | acceptCancelled {reason : CancelReason} : m.pc = .poll → m.context.reason = some reason →
      HandshakeStep config m { m with
        pc := .failed (connectionCancelled reason) (some .cancelled) }
  | acceptProceeds : m.pc = .poll → m.context.reason = none →
      HandshakeStep config m { m with pc := .listen }
  /-- A peer that is not on the loopback interface. -/
  | foreign : m.pc = .listen → HandshakeStep config m { m with pc := .poll }
  | peer : m.pc = .listen →
      HandshakeStep config m { m with
        pc := .hello (min config.handshakeDeadline (m.now + peerHelloTimeout)) }
  | wouldBlock : m.pc = .listen → HandshakeStep config m { m with pc := .blocked }
  | acceptFailed (error : IoError) : m.pc = .listen →
      HandshakeStep config m { m with pc := .failed (.io error) none }
  | slept : m.pc = .blocked → m.now < config.handshakeDeadline →
      HandshakeStep config m { m with pc := .poll }
  | acceptExpired : m.pc = .blocked → config.handshakeDeadline ≤ m.now →
      HandshakeStep config m { m with pc := .acceptDue }
  | acceptRecords : m.pc = .acceptDue → config.due m.now = true →
      HandshakeStep config m { m with
        pc := .insertDeadline (.failed connectExpired (some .accepting)) }
  | acceptReports : m.pc = .acceptDue → config.due m.now = false →
      HandshakeStep config m { m with pc := .failed connectExpired (some .accepting) }
  /-- The candidate sends no frame in time, no frame at all, or no HELLO of the child's. -/
  | dropped {peerDeadline : Nat} : m.pc = .hello peerDeadline →
      HandshakeStep config m { m with pc := .top }
  | greeted {peerDeadline : Nat} {hello : SupervisorFrame} {session : SupervisorParentSession} :
      m.pc = .hello peerDeadline → config.authentic hello = true →
      config.beginRequest hello = .ok session →
      HandshakeStep config m { m with
        session, pc := .request (config.phaseFrameDeadline m.now) }
  | refused {peerDeadline : Nat} {hello : SupervisorFrame} {error : LibdenoError} :
      m.pc = .hello peerDeadline → config.authentic hello = true →
      config.beginRequest hello = .error error →
      HandshakeStep config m { m with pc := .failed error none }
  | frameExpired {frameDeadline : Nat} : m.pc.frameDeadline? = some frameDeadline →
      frameDeadline ≤ m.now → HandshakeStep config m { m with pc := .frameDue }
  | frameRecords : m.pc = .frameDue → config.due m.now = true → m.context.reason = none →
      HandshakeStep config m { m with
        pc := .insertDeadline (.failed Supervisor.frameExpired (some .frame)) }
  | frameReports : m.pc = .frameDue → ¬(config.due m.now = true ∧ m.context.reason = none) →
      HandshakeStep config m { m with pc := .failed Supervisor.frameExpired (some .frame) }
  | frameCancelled {frameDeadline : Nat} : m.pc.frameDeadline? = some frameDeadline →
      m.context.isRequested = true →
      HandshakeStep config m { m with pc := .failed Supervisor.frameCancelled (some .cancelled) }
  | frameFailed {frameDeadline : Nat} (error : IoError) :
      m.pc.frameDeadline? = some frameDeadline →
      HandshakeStep config m { m with pc := .failed (.io error) none }
  | requestWritten {frameDeadline : Nat} : m.pc = .request frameDeadline →
      HandshakeStep config m { m with pc := .accepted (config.phaseFrameDeadline m.now) }
  | accepted {frameDeadline : Nat} {frame : SupervisorFrame}
      {session : SupervisorParentSession} : m.pc = .accepted frameDeadline →
      m.session.receiveChildFrame config.json frame = (.ok .accepted, session) →
      HandshakeStep config m { m with session, pc := .due }
  | notAccepted {frameDeadline : Nat} {frame : SupervisorFrame}
      {event : SupervisorFrameEvent} {session : SupervisorParentSession} :
      m.pc = .accepted frameDeadline → event ≠ .accepted →
      m.session.receiveChildFrame config.json frame = (.ok event, session) →
      HandshakeStep config m { m with
        session, pc := .failed (supervisorError "supervisor child did not accept REQUEST") none }
  | rejected {frameDeadline : Nat} {frame : SupervisorFrame} {error : IoError}
      {session : SupervisorParentSession} : m.pc = .accepted frameDeadline →
      m.session.receiveChildFrame config.json frame = (.error error, session) →
      HandshakeStep config m { m with session, pc := .failed (.io error) none }
  | dueRecords : m.pc = .due → m.context.reason = none → config.due m.now = true →
      HandshakeStep config m { m with pc := .insertDeadline .authorize }
  | dueProceeds : m.pc = .due → ¬(m.context.reason = none ∧ config.due m.now = true) →
      HandshakeStep config m { m with pc := .authorize }
  | authorized {session : SupervisorParentSession} : m.pc = .authorize →
      m.session.authorizeStart m.context.reason = (.ok true, session) →
      HandshakeStep config m { m with
        session, pc := .start (config.phaseFrameDeadline m.now) }
  /-- CANCEL is sent in place of START; the session goes on to its TERMINAL. -/
  | cancelling {session : SupervisorParentSession} : m.pc = .authorize →
      m.session.authorizeStart m.context.reason = (.ok false, session) →
      HandshakeStep config m { m with session, pc := .answered }
  | unauthorized {error : IoError} {session : SupervisorParentSession} : m.pc = .authorize →
      m.session.authorizeStart m.context.reason = (.error error, session) →
      HandshakeStep config m { m with session, pc := .failed (.io error) none }
  | started {frameDeadline : Nat} : m.pc = .start frameDeadline →
      HandshakeStep config m { m with pc := .answered }
  | insertDeadline {next : HandshakePc} : m.pc = .insertDeadline next →
      HandshakeStep config m { m with
        context := m.context.insertReason .deadline, pc := .storeDeadline next }
  | storeDeadline {next : HandshakePc} : m.pc = .storeDeadline next →
      HandshakeStep config m { m with context := m.context.storeRequested, pc := next }

/-- A step of somebody else's request. -/
inductive RequesterStep (m : Handshake) : Requester → Handshake → Requester → Prop
  | insert (reason : CancelReason) :
      RequesterStep m (.insert reason) { m with context := m.context.insertReason reason } .store
  | store : RequesterStep m .store { m with context := m.context.storeRequested } .returned

/-- The session's thread or the clock moves, or somebody requests a cancellation. -/
inductive HandshakeEnvironment (config : HandshakeConfig) (m : Handshake) :
    Handshake → List Requester → Prop
  | handshake {m' : Handshake} : HandshakeStep config m m' → HandshakeEnvironment config m m' []
  | tick (elapsed : Nat) : HandshakeEnvironment config m { m with now := m.now + elapsed } []
  | request (reason : CancelReason) : HandshakeEnvironment config m m [.insert reason]

abbrev HandshakeSystemStep (config : HandshakeConfig) :
    HandshakeSystem → HandshakeSystem → Prop :=
  Pool.Step (fun m t m' t' spawned => RequesterStep m t m' t' ∧ spawned = [])
    (HandshakeEnvironment config)

/-- The start of the handshake, with a fresh context. -/
def HandshakeConfig.Initial (config : HandshakeConfig) (s : HandshakeSystem) : Prop :=
  s = { memory := { context := .new, now := config.start,
                    session := .new supervisorRequestId, pc := .top }, threads := [] }

/-! ### What a failure says -/

variable {config : HandshakeConfig} {m m' : Handshake} {t t' : Requester}

/-- The errors of a handshake whose time is up: a timeout, unless the top of the accept loop
noticed or somebody else's cancellation was seen. -/
def HandshakePc.Sound : HandshakePc → Prop
  | .failed error (some notice) =>
      supervisorSessionErrorIsTimeout error = true ↔ notice = .accepting ∨ notice = .frame
  | .insertDeadline next | .storeDeadline next => next.Sound
  | _ => True

theorem HandshakeStep.sound (step : HandshakeStep config m m') (h : m.pc.Sound) :
    m'.pc.Sound := by
  cases step with
  | topCancelled hpc hreason => exact ⟨nofun, fun h => (by simp at h)⟩
  | topExpired hpc hclock => exact ⟨nofun, fun h => (by simp at h)⟩
  | acceptCancelled hpc hreason => exact ⟨nofun, fun h => (by simp at h)⟩
  | acceptRecords hpc hdue => exact ⟨fun _ => .inl rfl, fun _ => rfl⟩
  | acceptReports hpc hdue => exact ⟨fun _ => .inl rfl, fun _ => rfl⟩
  | frameRecords hpc hdue hreason => exact ⟨fun _ => .inr rfl, fun _ => rfl⟩
  | frameReports hpc hdue => exact ⟨fun _ => .inr rfl, fun _ => rfl⟩
  | frameCancelled hpc hrequested => exact ⟨nofun, fun h => (by simp at h)⟩
  | insertDeadline hpc =>
      rw [hpc] at h
      exact h
  | storeDeadline hpc =>
      rw [hpc] at h
      exact h
  | _ => trivial

/-- The flag is never set without a reason. -/
structure Recorded (m : Handshake) : Prop where
  flag : m.context.requested = true → m.context.reason ≠ none
  storing : ∀ next, m.pc = .storeDeadline next → m.context.reason ≠ none

theorem HandshakeStep.recorded (step : HandshakeStep config m m') (h : Recorded m) :
    Recorded m' := by
  cases step with
  | insertDeadline hpc =>
      exact ⟨fun _ => Option.some_ne_none _, fun _ _ => Option.some_ne_none _⟩
  | @storeDeadline next hpc =>
      have reason := h.storing next hpc
      exact ⟨fun _ => reason, fun _ _ => reason⟩
  | _ => exact ⟨h.flag, fun next hnext => by cases hnext⟩

theorem RequesterStep.recorded (step : RequesterStep m t m' t') (h : Recorded m)
    (known : t = .store → m.context.reason ≠ none) : Recorded m' := by
  cases step with
  | insert reason => exact ⟨fun _ => Option.some_ne_none _, fun _ _ => Option.some_ne_none _⟩
  | store => exact ⟨fun _ => known rfl, h.storing⟩

/-- A recorded reason stays. -/
theorem HandshakeStep.reason (step : HandshakeStep config m m')
    (h : m.context.reason ≠ none) : m'.context.reason ≠ none := by
  cases step with
  | insertDeadline hpc => exact Option.some_ne_none _
  | _ => exact h

/-- The invariant of the whole. -/
structure HandshakeInv (s : HandshakeSystem) : Prop where
  sound : s.memory.pc.Sound
  recorded : Recorded s.memory
  requesters : ∀ t ∈ s.threads, t = .store → s.memory.context.reason ≠ none

theorem HandshakeInv.step {s s' : HandshakeSystem} (inv : HandshakeInv s)
    (step : HandshakeSystemStep config s s') : HandshakeInv s' := by
  obtain ⟨sound, recorded, requesters⟩ := inv
  have threads : ∀ t ∈ s'.threads, t = .store → s'.memory.context.reason ≠ none := by
    refine Pool.Step.threads (K := fun _ => True)
      (P := fun m t => t = .store → m.context.reason ≠ none) ?_ ?_ ?_ step trivial requesters
    · rintro m t m' t' spawned before after - ⟨h, rfl⟩ ht
      cases h with
      | insert reason => exact ⟨fun _ => Option.some_ne_none _, by simp⟩
      | store => exact ⟨nofun, by simp⟩
    · rintro m t m' t' spawned before after u - - ⟨h, -⟩ - hu hstore
      cases h with
      | insert reason => exact Option.some_ne_none _
      | store => exact hu hstore
    · rintro m m' spawned threads - h
      cases h with
      | handshake h => exact ⟨fun u _ hu hstore => h.reason (hu hstore), by simp⟩
      | tick elapsed => exact ⟨fun u _ hu => hu, by simp⟩
      | request reason =>
          refine ⟨fun u _ hu => hu, fun u hu hstore => ?_⟩
          rw [List.mem_singleton.mp hu] at hstore
          cases hstore
  cases step with
  | @thread m m' t t' spawned before after h =>
      refine ⟨?_, h.1.recorded recorded (requesters t (by simp)), threads⟩
      obtain ⟨h, -⟩ := h
      cases h <;> exact sound
  | environment before h =>
      cases h with
      | handshake h => exact ⟨h.sound sound, h.recorded recorded, threads⟩
      | tick elapsed => exact ⟨sound, ⟨recorded.flag, recorded.storing⟩, threads⟩
      | request reason => exact ⟨sound, recorded, threads⟩

theorem handshakeInv_of_reachable {s : HandshakeSystem}
    (reach : Reachable config.Initial (HandshakeSystemStep config) s) : HandshakeInv s := by
  refine reach.invariant ?_ fun s t inv step => inv.step step
  rintro s rfl
  exact ⟨trivial, ⟨nofun, fun next h => (by cases h)⟩, by simp⟩

/-- The category of a session that failed with a killed child and no cancellation but for the
deadline. -/
theorem supervisorSessionFailureCategory_killed {error : LibdenoError}
    {reap : SupervisorChildReap} {cancellation : SupervisorCancellation}
    (killed : reap.forcedKill = true)
    (recorded : cancellation.context.requested = true → cancellation.context.reason ≠ none)
    (due : ∀ reason, cancellation.context.reason = some reason → reason = .deadline) :
    supervisorSessionFailureCategory error (.ok reap) cancellation = some .timeout ↔
      cancellation.context.requested = true ∨ supervisorSessionErrorIsTimeout error = true := by
  unfold supervisorSessionFailureCategory
  dsimp only
  split
  · next hrequested =>
    obtain ⟨reason, hreason⟩ := Option.ne_none_iff_exists'.mp (recorded hrequested)
    rw [SupervisorCancellation.reason_of_requested hreason, due reason hreason]
    simp only [true_iff]
    exact .inl hrequested
  · next hquiet =>
    have unrequested : ¬ cancellation.context.requested = true := hquiet
    simp only [killed, Bool.not_true, Bool.false_and, Bool.false_eq_true, if_false, unrequested,
      false_or]
    split
    · next htimeout => simp [htimeout]
    · next hother => simp [hother]

/-- A handshake that fails because its time is up, in every order of peers, frames, requests
of others and the clock, with a child that is killed and no request but for the deadline. The
category of the run is `Timeout` exactly when the expiry was noticed while accepting a peer or
by the timeout of a frame, or a cancellation is requested by the time the category is
computed. -/
theorem handshake_expiry (config : HandshakeConfig) (s : HandshakeSystem)
    (reach : Reachable config.Initial (HandshakeSystemStep config) s) (error : LibdenoError)
    (notice : Notice) (stopped : s.memory.pc = .failed error (some notice))
    (reap : SupervisorChildReap) (killed : reap.forcedKill = true)
    (due : ∀ reason, s.memory.context.reason = some reason → reason = .deadline)
    (defaultReason : CancelReason) (partialOutput : Option SupervisorPartialOutput)
    (collectionDeadlineWon : Bool) :
    (∃ failure, supervisedRunResult (.error error) (.ok reap)
        { context := s.memory.context, defaultReason } partialOutput collectionDeadlineWon =
          .error failure ∧ failure.category = some .timeout) ↔
      notice = .accepting ∨ notice = .frame ∨ s.memory.context.requested = true := by
  obtain ⟨sound, recorded, -⟩ := handshakeInv_of_reachable reach
  rw [stopped] at sound
  have category : supervisorSessionFailureCategory error (.ok reap)
      { context := s.memory.context, defaultReason } = some .timeout ↔
        s.memory.context.requested = true ∨ supervisorSessionErrorIsTimeout error = true :=
    supervisorSessionFailureCategory_killed killed recorded.flag due
  have run : ∀ failure, supervisedRunResult (.error error) (.ok reap)
      { context := s.memory.context, defaultReason } partialOutput collectionDeadlineWon =
        .error failure → failure.category = supervisorSessionFailureCategory error (.ok reap)
          { context := s.memory.context, defaultReason } := by
    intro failure h
    rw [supervisedRunResult] at h
    obtain rfl := Except.error.inj h
    exact categorised_category _ _ _ _
  constructor
  · rintro ⟨failure, hrun, hcategory⟩
    rw [run failure hrun] at hcategory
    rcases category.mp hcategory with hrequested | htimeout
    · exact .inr (.inr hrequested)
    · exact (sound.mp htimeout).imp_right .inl
  · intro h
    refine ⟨_, rfl, ?_⟩
    rw [run _ rfl, category]
    rcases h with haccepting | hframe | hrequested
    · exact .inr (sound.mpr (.inl haccepting))
    · exact .inr (sound.mpr (.inr hframe))
    · exact .inl hrequested

/-! ### A silent peer, and no peer at all -/

def sampleHandshake : HandshakeConfig :=
  { start := 0, deadline := none, token := ⟨List.replicate 16 5, rfl⟩, requestPayload := [],
    json := jsonTerminals }

/-- After five seconds, with what was noticed. -/
def expiredHandshake (error : LibdenoError) (notice : Notice) : HandshakeSystem :=
  { memory := { context := .new, now := 5000, session := .new supervisorRequestId,
                pc := .failed error (some notice) }, threads := [] }

abbrev SampleReachable : HandshakeSystem → Prop :=
  Reachable sampleHandshake.Initial (HandshakeSystemStep sampleHandshake)

theorem sample_listening : SampleReachable
    { memory := { context := .new, now := 0, session := .new supervisorRequestId,
                  pc := .listen }, threads := [] } := by
  have start : SampleReachable _ := .start rfl
  have looked := start.snoc (.environment [] (.handshake (.topProceeds rfl rfl)))
  have accepting := looked.snoc (.environment [] (.handshake (.accept rfl (by decide))))
  exact accepting.snoc (.environment [] (.handshake (.acceptProceeds rfl rfl)))

/-- No peer comes. -/
theorem sample_noPeer : SampleReachable (expiredHandshake connectExpired .accepting) := by
  have blocked := sample_listening.snoc (.environment [] (.handshake (.wouldBlock rfl)))
  have later := blocked.snoc (.environment [] (.tick 5000))
  have expired := later.snoc (.environment [] (.handshake (.acceptExpired rfl (by decide))))
  exact expired.snoc (.environment [] (.handshake (.acceptReports rfl rfl)))

theorem handshake_expiry_noPeer :
    ∃ failure, supervisedRunResult (.error connectExpired) (.ok ⟨none, true⟩)
        { context := .new, defaultReason := .user } none false = .error failure ∧
      failure.category = some .timeout :=
  (handshake_expiry sampleHandshake _ sample_noPeer _ _ rfl ⟨none, true⟩ rfl nofun
    .user none false).mpr (.inl rfl)

/-- A peer connects, says nothing and is dropped when the time is up. -/
theorem sample_silentPeer : SampleReachable (expiredHandshake handshakeExpired .loopTop) := by
  have connected := sample_listening.snoc (.environment [] (.handshake (.peer rfl)))
  have later := connected.snoc (.environment [] (.tick 5000))
  have dropped := later.snoc (.environment [] (.handshake (.dropped rfl)))
  have looked := dropped.snoc (.environment [] (.handshake (.topProceeds rfl rfl)))
  exact looked.snoc (.environment [] (.handshake (.topExpired rfl (by decide))))

/-- The run with the silent peer is no timeout. -/
theorem handshake_expiry_silentPeer :
    ¬ ∀ (config : HandshakeConfig) (s : HandshakeSystem),
      Reachable config.Initial (HandshakeSystemStep config) s →
      ∀ error notice, s.memory.pc = .failed error (some notice) →
      ∀ reap : SupervisorChildReap, reap.forcedKill = true →
      (∀ reason, s.memory.context.reason = some reason → reason = .deadline) →
      ∀ defaultReason partialOutput collectionDeadlineWon,
      ∃ failure, supervisedRunResult (.error error) (.ok reap)
          { context := s.memory.context, defaultReason } partialOutput collectionDeadlineWon =
            .error failure ∧ failure.category = some .timeout := by
  intro timeout
  obtain ⟨failure, hrun, hcategory⟩ := timeout sampleHandshake _ sample_silentPeer _ _ rfl
    ⟨none, true⟩ rfl nofun .user none false
  obtain rfl := Except.error.inj hrun
  cases hcategory

end Libdeno.Supervisor
