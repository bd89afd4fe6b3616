import Libdeno.Supervisor.ChildSession

/-!
# Libdeno.Supervisor.SessionRuns

Arbitrary runs of the two session records: any finite sequence of operations, in
any order, fed with any frames. The peer is adversarial here, so nothing is
assumed about the frames or about the order in which the driver calls; the honest
drivers of `Libdeno.Supervisor.Drivers` are a special case and reuse the
invariants.

The invariant over the product of state, reason and terminal is
`ParentInvariant`. Two predicates follow a session through a run: `PreStart`
(START was never authorised) and `PreStartCancelled` (CancellingBeforeStart was
entered); each is closed under every change but the authorising one.
-/

namespace Libdeno.Supervisor

open SupervisorParentSession

/-! ### Operations and runs -/

/-- One call on a parent session. -/
inductive ParentOp
  | acceptHello (frame : SupervisorFrame) (token : SupervisorToken)
  | sendRequest
  | sendCancel (reason : CancelReason)
  | authorizeStart (requested : Option CancelReason)
  | receiveChildFrame (frame : SupervisorFrame)

/-- What a successful call answers. -/
inductive ParentReply
  | unit
  | flag (value : Bool)
  | event (value : SupervisorFrameEvent)
  deriving Repr, DecidableEq

/-- Perform one call: its answer and the session it leaves behind. -/
def ParentOp.apply (json : SerdeJson SupervisorTerminal) (op : ParentOp)
    (s : SupervisorParentSession) : Except IoError ParentReply × SupervisorParentSession :=
  match op with
  | .acceptHello frame token =>
      ((s.acceptHello frame token).1.map fun _ => .unit, (s.acceptHello frame token).2)
  | .sendRequest => (s.sendRequest.1.map fun _ => .unit, s.sendRequest.2)
  | .sendCancel reason => ((s.sendCancel reason).1.map .flag, (s.sendCancel reason).2)
  | .authorizeStart requested =>
      ((s.authorizeStart requested).1.map .flag, (s.authorizeStart requested).2)
  | .receiveChildFrame frame =>
      ((s.receiveChildFrame json frame).1.map .event, (s.receiveChildFrame json frame).2)

/-- The call is an `authorize_start` that authorises START. -/
def ParentOp.authorizes (op : ParentOp) (s : SupervisorParentSession) : Bool :=
  match op with
  | .authorizeStart requested => s.authorizes requested
  | _ => false

/-- A run of calls on a parent session. -/
def runParent (json : SerdeJson SupervisorTerminal) (s : SupervisorParentSession)
    (ops : List ParentOp) : SupervisorParentSession :=
  ops.foldl (fun s op => (op.apply json s).2) s

/-- One call on a child session. -/
inductive ChildOp
  | receiveParentFrame (frame : SupervisorFrame)
  | markTerminal (terminal : SupervisorTerminal)

/-- Perform one call on a child session; only success or failure is kept of the
answer. -/
def ChildOp.apply (json : SerdeJson CancelReason) (op : ChildOp)
    (s : SupervisorChildSession) : Except IoError Unit × SupervisorChildSession :=
  match op with
  | .receiveParentFrame frame =>
      ((s.receiveParentFrame json frame).1.map fun _ => (), (s.receiveParentFrame json frame).2)
  | .markTerminal terminal =>
      ((s.markTerminal terminal).1.map fun _ => (), (s.markTerminal terminal).2)

/-- A run of calls on a child session. -/
def runChild (json : SerdeJson CancelReason) (s : SupervisorChildSession)
    (ops : List ChildOp) : SupervisorChildSession :=
  ops.foldl (fun s op => (op.apply json s).2) s

section Parent

variable {json : SerdeJson SupervisorTerminal} {s s' : SupervisorParentSession} {b : Bool}

@[simp] theorem runParent_nil : runParent json s [] = s := rfl

@[simp] theorem runParent_cons (op : ParentOp) (ops : List ParentOp) :
    runParent json s (op :: ops) = runParent json (op.apply json s).2 ops := rfl

theorem runParent_append (first second : List ParentOp) :
    runParent json s (first ++ second) = runParent json (runParent json s first) second := by
  simp [runParent, List.foldl_append]

/-- Every call makes one of the listed changes. -/
theorem ParentOp.apply_change (op : ParentOp) (s : SupervisorParentSession) :
    ParentChange s (op.authorizes s) (op.apply json s).2 := by
  cases op with
  | acceptHello frame token => exact acceptHello_change s frame token
  | sendRequest => exact sendRequest_change s
  | sendCancel reason => exact sendCancel_change s reason
  | authorizeStart requested => exact authorizeStart_change s requested
  | receiveChildFrame frame => exact receiveChildFrame_change s json frame

/-! ### Errors leave the session alone -/

theorem acceptHello_error {frame : SupervisorFrame} {token : SupervisorToken} {e : IoError}
    (h : (s.acceptHello frame token).1 = .error e) : (s.acceptHello frame token).2 = s := by
  unfold acceptHello at h ⊢
  split <;> simp_all

theorem sendRequest_error {e : IoError} (h : s.sendRequest.1 = .error e) :
    s.sendRequest.2 = s := by
  unfold sendRequest at h ⊢
  split <;> simp_all

theorem sendCancel_error {reason : CancelReason} {e : IoError}
    (h : (s.sendCancel reason).1 = .error e) : (s.sendCancel reason).2 = s := by
  unfold sendCancel at h ⊢
  split
  · split
    · rfl
    · split <;> simp_all
  · split <;> simp_all

theorem authorizeStart_error {requested : Option CancelReason} {e : IoError}
    (h : (s.authorizeStart requested).1 = .error e) : (s.authorizeStart requested).2 = s := by
  unfold authorizeStart at h ⊢
  split
  · rfl
  · cases requested <;> simp_all

theorem receiveTerminal_error {terminal : SupervisorTerminal} {e : IoError}
    (h : (s.receiveTerminal terminal).1 = .error e) : (s.receiveTerminal terminal).2 = s := by
  unfold receiveTerminal at h ⊢
  split
  · split <;> rfl
  · split
    · split
      · split <;> simp_all
      · rfl
    all_goals simp_all

theorem receiveChildFrame_error {frame : SupervisorFrame} {e : IoError}
    (h : (s.receiveChildFrame json frame).1 = .error e) :
    (s.receiveChildFrame json frame).2 = s := by
  unfold receiveChildFrame at h ⊢
  split
  · rfl
  · next hid =>
    rw [if_neg hid] at h
    split
    · split <;> simp_all
    · split
      · simp_all
      · split <;> simp_all
      · rfl
    · split
      · rfl
      · split
        · rfl
        · refine receiveTerminal_error (e := e) ?_
          simp_all
    · rfl

/-- Only an error is mapped to an error. -/
theorem error_of_map_error {α β : Type} {x : Except IoError α} {f : α → β} {e : IoError}
    (h : x.map f = .error e) : x = .error e := by
  cases x with
  | error e' => simpa [Except.map] using h
  | ok a => simp [Except.map] at h

/-- **Errors are clean.** A parent call that fails leaves every field alone. -/
theorem ParentOp.apply_error {op : ParentOp} {e : IoError}
    (h : (op.apply json s).1 = .error e) : (op.apply json s).2 = s := by
  cases op with
  | acceptHello frame token => exact acceptHello_error (error_of_map_error h)
  | sendRequest => exact sendRequest_error (error_of_map_error h)
  | sendCancel reason => exact sendCancel_error (error_of_map_error h)
  | authorizeStart requested => exact authorizeStart_error (error_of_map_error h)
  | receiveChildFrame frame => exact receiveChildFrame_error (error_of_map_error h)

/-! ### The invariant -/

/-- How state, reason and terminal of a parent session hang together. -/
structure ParentInvariant (s : SupervisorParentSession) : Prop where
  terminal_iff : s.state = .terminal ↔ s.terminal ≠ none
  /-- No reason is recorded while no cancellation is under way. -/
  no_reason : s.state ∈ [.awaitHello, .awaitAccepted, .accepted, .awaitStarted, .started] →
    s.cancelReason = none
  /-- A cancellation under way has a reason. -/
  has_reason : s.state ∈ [.cancellingBeforeAccepted, .cancellingBeforeStart, .cancelling] →
    s.cancelReason.isSome

theorem ParentInvariant.new (requestId : UInt64) : ParentInvariant (.new requestId) := by
  constructor <;> simp [SupervisorParentSession.new]

theorem ParentChange.invariant (change : ParentChange s b s') (inv : ParentInvariant s) :
    ParentInvariant s' := by
  obtain ⟨hterm, hnone, hsome⟩ := inv
  cases change <;> constructor <;> simp_all
  all_goals grind

/-- The stored terminal is write-once. -/
theorem ParentChange.terminal_stable (change : ParentChange s b s')
    {t : SupervisorTerminal} (h : s.terminal = some t) : s'.terminal = some t := by
  cases change <;> simp_all

/-- The recorded reason is write-once. -/
theorem ParentChange.reason_stable (change : ParentChange s b s') (inv : ParentInvariant s)
    {r : CancelReason} (h : s.cancelReason = some r) : s'.cancelReason = some r := by
  cases change with
  | startRefused accepted =>
      have := inv.no_reason (by simp [accepted])
      simp_all
  | _ => simp_all

/-- Nothing moves a terminal session. -/
theorem ParentChange.terminal_final (change : ParentChange s b s')
    (inv : ParentInvariant s) (h : s.state = .terminal) :
    s'.state = .terminal ∧ s'.terminal = s.terminal ∧ s'.cancelReason = s.cancelReason := by
  have stored := inv.terminal_iff.mp h
  cases change <;> simp_all

/-! ### Before START -/

/-- A stored terminal answers the recorded cancellation. -/
def AnswersCancellation (s : SupervisorParentSession) : Prop :=
  ∀ t, s.terminal = some t → ∃ r, s.cancelReason = some r ∧ t.outcome = preStartOutcome r

/-- START has not been authorised: the session is in a state before START, or it
is terminal through a pre-START cancellation. -/
def PreStart (s : SupervisorParentSession) : Prop :=
  s.state ∈ [.awaitHello, .awaitAccepted, .accepted, .cancellingBeforeAccepted,
    .cancellingBeforeStart, .terminal] ∧ AnswersCancellation s

/-- CancellingBeforeStart has been entered. -/
def PreStartCancelled (s : SupervisorParentSession) : Prop :=
  (s.state = .cancellingBeforeStart ∨ s.state = .terminal) ∧ AnswersCancellation s

theorem PreStart.new (requestId : UInt64) : PreStart (.new requestId) := by
  simp [PreStart, AnswersCancellation, SupervisorParentSession.new]

/-- Only an authorisation leaves the pre-START region. -/
theorem ParentChange.preStart (change : ParentChange s false s') (inv : ParentInvariant s)
    (h : PreStart s) : PreStart s' := by
  obtain ⟨hstate, hanswer⟩ := h
  have hterm := inv.terminal_iff
  have hnone := inv.no_reason
  unfold PreStart AnswersCancellation at *
  cases change <;> simp_all
  all_goals grind

/-- Nothing leaves a pre-START cancellation but its own terminal. -/
theorem ParentChange.preStartCancelled (change : ParentChange s b s')
    (inv : ParentInvariant s) (h : PreStartCancelled s) : PreStartCancelled s' := by
  obtain ⟨hstate, hanswer⟩ := h
  have hterm := inv.terminal_iff
  unfold PreStartCancelled AnswersCancellation at *
  cases change <;> simp_all
  all_goals grind

/-! ### Runs -/

/-- A property every call preserves is preserved by runs. -/
theorem runParent_induction {P : SupervisorParentSession → Prop} (ops : List ParentOp)
    (start : P s)
    (preserve : ∀ s op, P s → P (ParentOp.apply json op s).2) : P (runParent json s ops) := by
  induction ops generalizing s with
  | nil => exact start
  | cons op ops ih => exact ih (preserve s op start)

theorem ParentInvariant.run (inv : ParentInvariant s) (ops : List ParentOp) :
    ParentInvariant (runParent json s ops) :=
  runParent_induction ops inv fun s op h => (op.apply_change s).invariant h

/-- What is preserved under the invariant is preserved by runs. -/
theorem runParent_induction_inv {P : SupervisorParentSession → Prop} (ops : List ParentOp)
    (inv : ParentInvariant s) (start : P s)
    (preserve : ∀ s s' b, ParentInvariant s → ParentChange s b s' → P s → P s') :
    P (runParent json s ops) := by
  refine (runParent_induction (P := fun s => ParentInvariant s ∧ P s) ops ⟨inv, start⟩ ?_).2
  rintro s op ⟨hinv, hp⟩
  have change : ParentChange s _ (op.apply json s).2 := op.apply_change s
  exact ⟨change.invariant hinv, preserve _ _ _ hinv change hp⟩

/-- A run without an authorising call stays before START; contrapositively, a
session past START has an authorising call behind it. -/
theorem exists_authorizes_of_not_preStart (ops : List ParentOp) (inv : ParentInvariant s)
    (start : PreStart s) (past : ¬ PreStart (runParent json s ops)) :
    ∃ before op after, ops = before ++ op :: after ∧
      op.authorizes (runParent json s before) = true := by
  induction ops generalizing s with
  | nil => exact absurd start past
  | cons op ops ih =>
      have change : ParentChange s _ (op.apply json s).2 := op.apply_change s
      cases hb : op.authorizes s with
      | true => exact ⟨[], op, ops, rfl, hb⟩
      | false =>
          rw [hb] at change
          obtain ⟨before, op', after, rfl, h⟩ :=
            ih (change.invariant inv) (change.preStart inv start) past
          exact ⟨op :: before, op', after, rfl, h⟩

/-- A terminal present at the end of a run was stored by one of its calls. -/
theorem exists_storing_call (ops : List ParentOp) (start : s.terminal = none)
    (stored : (runParent json s ops).terminal ≠ none) :
    ∃ before op after, ops = before ++ op :: after ∧
      (runParent json s before).terminal = none ∧
      (runParent json s (before ++ [op])).terminal ≠ none := by
  induction ops generalizing s with
  | nil => exact absurd start stored
  | cons op ops ih =>
      by_cases h : (op.apply json s).2.terminal = none
      · obtain ⟨before, op', after, rfl, hbefore, hafter⟩ := ih h stored
        exact ⟨op :: before, op', after, rfl, hbefore, hafter⟩
      · exact ⟨[], op, ops, rfl, start, h⟩

/-- Storing the terminal does not touch the recorded reason. -/
theorem ParentChange.reason_of_stores (change : ParentChange s b s')
    (before : s.terminal = none) (after : s'.terminal ≠ none) :
    s'.cancelReason = s.cancelReason := by
  cases change <;> simp_all

/-- Once a terminal is stored, the recorded reason no longer changes. -/
theorem runParent_reason_of_terminal (ops : List ParentOp) (inv : ParentInvariant s)
    (stored : s.terminal ≠ none) :
    (runParent json s ops).cancelReason = s.cancelReason := by
  refine (runParent_induction_inv ops inv
    (P := fun s' => s'.state = .terminal ∧ s'.cancelReason = s.cancelReason)
    ⟨inv.terminal_iff.mpr stored, rfl⟩ ?_).2
  rintro s' s'' b hinv change ⟨hstate, hreason⟩
  obtain ⟨hstate', -, hreason'⟩ := change.terminal_final hinv hstate
  exact ⟨hstate', hreason'.trans hreason⟩

/-- The run up to and including its storing call decides the reported
cancellation. -/
theorem reason_at_storing_call {before after : List ParentOp} {op : ParentOp}
    (inv : ParentInvariant s)
    (hbefore : (runParent json s before).terminal = none)
    (hafter : (runParent json s (before ++ [op])).terminal ≠ none) :
    (runParent json s (before ++ op :: after)).cancellationBeforeTerminal =
      (runParent json s before).cancelReason := by
  have hrun : runParent json s (before ++ op :: after) =
      runParent json (runParent json s (before ++ [op])) after := by
    rw [← runParent_append, List.append_assoc, List.singleton_append]
  have inv_mid : ParentInvariant (runParent json s (before ++ [op])) := inv.run _
  have hreason : (runParent json s (before ++ op :: after)).cancelReason =
      (runParent json s before).cancelReason := by
    rw [hrun, runParent_reason_of_terminal after inv_mid hafter]
    rw [runParent_append] at hafter ⊢
    exact (op.apply_change _).reason_of_stores hbefore hafter
  have hterm : (runParent json s (before ++ op :: after)).terminal ≠ none := by
    obtain ⟨t, ht⟩ := Option.ne_none_iff_exists'.mp hafter
    have kept : (runParent json (runParent json s (before ++ [op])) after).terminal = some t :=
      runParent_induction after ht fun s op h => (op.apply_change s).terminal_stable h
    rw [hrun, kept]
    exact Option.some_ne_none t
  rw [cancellationBeforeTerminal, if_pos (Option.isSome_iff_ne_none.mpr hterm), hreason]

end Parent

/-! ### The child -/

section Child

variable {json : SerdeJson CancelReason} {s : SupervisorChildSession}

theorem receiveCancel_error {reason : CancelReason} {e : IoError}
    (h : (s.receiveCancel reason).1 = .error e) : (s.receiveCancel reason).2 = s := by
  unfold SupervisorChildSession.receiveCancel at h ⊢
  split
  · split <;> rfl
  · split <;> simp_all

theorem receiveParentFrame_error {frame : SupervisorFrame} {e : IoError}
    (h : (s.receiveParentFrame json frame).1 = .error e) :
    (s.receiveParentFrame json frame).2 = s := by
  unfold SupervisorChildSession.receiveParentFrame at h ⊢
  split
  · rfl
  · next hid =>
    rw [if_neg hid] at h
    split
    · split <;> simp_all
    · simp_all
    · split
      · rfl
      · refine receiveCancel_error (e := e) ?_
        simp_all
    · rfl

theorem markTerminal_error {terminal : SupervisorTerminal} {e : IoError}
    (h : (s.markTerminal terminal).1 = .error e) : (s.markTerminal terminal).2 = s := by
  unfold SupervisorChildSession.markTerminal at h ⊢
  split
  · rfl
  · split
    · split <;> rfl
    · split <;> simp_all

/-- A child call that fails leaves every field alone. -/
theorem ChildOp.apply_error {op : ChildOp} {e : IoError}
    (h : (op.apply json s).1 = .error e) : (op.apply json s).2 = s := by
  cases op with
  | receiveParentFrame frame => exact receiveParentFrame_error (error_of_map_error h)
  | markTerminal terminal => exact markTerminal_error (error_of_map_error h)

end Child

/-! ### The guarantees of a session against any peer -/

/-- **Session invariants.** Whatever sequence of calls and frames a fresh parent
session has seen: errors are clean on both sides; the session is terminal exactly
when a terminal is stored; terminal and reason are write-once and a terminal
session is final; a pre-START cancellation is never left towards START and can
only store the outcome of its reason; a Completed terminal has an authorisation
behind it; and the reported cancellation is the one recorded when the terminal
was stored. -/
theorem parent_session_invariants (json : SerdeJson SupervisorTerminal)
    (reasons : SerdeJson CancelReason) (requestId : UInt64) (ops : List ParentOp) :
    let fresh := SupervisorParentSession.new requestId
    let s := runParent json fresh ops
    (∀ op e, (ParentOp.apply json op s).1 = .error e → (ParentOp.apply json op s).2 = s) ∧
    (∀ childOps op e,
      let c := runChild reasons .new childOps
      (ChildOp.apply reasons op c).1 = .error e → (ChildOp.apply reasons op c).2 = c) ∧
    (s.state = .terminal ↔ s.terminal ≠ none) ∧
    (∀ later t, s.terminal = some t → (runParent json s later).terminal = some t) ∧
    (∀ later r, s.cancelReason = some r → (runParent json s later).cancelReason = some r) ∧
    (∀ later, s.state = .terminal →
      (runParent json s later).state = .terminal ∧
      (runParent json s later).terminal = s.terminal ∧
      (runParent json s later).cancelReason = s.cancelReason) ∧
    (∀ later, s.state = .cancellingBeforeStart →
      let s' := runParent json s later
      s'.state ≠ .awaitStarted ∧ s'.state ≠ .started ∧
      (∀ requested, (s'.authorizeStart requested).1 ≠ .ok true) ∧
      ∀ t, s'.terminal = some t →
        ∃ r, s'.cancelReason = some r ∧ t.outcome = preStartOutcome r) ∧
    (∀ t, s.terminal = some t → t.outcome = .completed →
      ∃ before requested after, ops = before ++ .authorizeStart requested :: after ∧
        ((runParent json fresh before).authorizeStart requested).1 = .ok true) ∧
    (∀ r, s.cancellationBeforeTerminal = some r ↔
      ∃ before op after, ops = before ++ op :: after ∧
        (runParent json fresh before).terminal = none ∧
        (runParent json fresh (before ++ [op])).terminal ≠ none ∧
        (runParent json fresh before).cancelReason = some r) := by
  intro fresh s
  have inv : ParentInvariant s := (ParentInvariant.new requestId).run ops
  refine ⟨fun op e h => ParentOp.apply_error h, fun childOps op e h => ChildOp.apply_error h,
    inv.terminal_iff, fun later t h => ?_, fun later r h => ?_, fun later h => ?_,
    fun later h => ?_, fun t ht hcompleted => ?_, fun r => ⟨fun h => ?_, ?_⟩⟩
  · exact runParent_induction later h fun s op h => (op.apply_change s).terminal_stable h
  · exact runParent_induction_inv later inv h fun s s' b hinv change h =>
      change.reason_stable hinv h
  · refine runParent_induction_inv later inv
      (P := fun s' => s'.state = .terminal ∧ s'.terminal = s.terminal ∧
        s'.cancelReason = s.cancelReason) ⟨h, rfl, rfl⟩ ?_
    rintro s' s'' b hinv change ⟨hstate, hterm, hreason⟩
    obtain ⟨hstate', hterm', hreason'⟩ := change.terminal_final hinv hstate
    exact ⟨hstate', hterm'.trans hterm, hreason'.trans hreason⟩
  · have start : PreStartCancelled s := by
      have hterm : s.terminal = none := by
        by_contra hne
        simp [inv.terminal_iff.mpr hne] at h
      exact ⟨.inl h, fun t ht => by simp [hterm] at ht⟩
    obtain ⟨hstate, hanswer⟩ : PreStartCancelled (runParent json s later) :=
      runParent_induction_inv later inv start fun s s' b hinv change h =>
        change.preStartCancelled hinv h
    refine ⟨?_, ?_, ?_, hanswer⟩
    · rcases hstate with hstate | hstate <;> simp [hstate]
    · rcases hstate with hstate | hstate <;> simp [hstate]
    · intro requested
      rw [ne_eq, authorizeStart_eq_true]
      rcases hstate with hstate | hstate <;> simp [authorizes, hstate]
  · have past : ¬ PreStart s := by
      rintro ⟨-, hanswer⟩
      obtain ⟨r, -, hr⟩ := hanswer t ht
      exact preStartOutcome_ne_completed r (hr.symm.trans hcompleted)
    obtain ⟨before, op, after, hops, hauth⟩ :=
      exists_authorizes_of_not_preStart ops (.new requestId) (.new requestId) past
    cases op with
    | authorizeStart requested =>
        exact ⟨before, requested, after, hops, authorizeStart_eq_true.mpr hauth⟩
    | _ => simp [ParentOp.authorizes] at hauth
  · have hterm : s.terminal ≠ none := by
      intro hnone
      simp [cancellationBeforeTerminal, hnone] at h
    obtain ⟨before, op, after, rfl, hbefore, hafter⟩ := exists_storing_call ops rfl hterm
    refine ⟨before, op, after, rfl, hbefore, hafter, ?_⟩
    rw [← h, reason_at_storing_call (.new requestId) hbefore hafter]
  · rintro ⟨before, op, after, rfl, hbefore, hafter, hreason⟩
    rw [← hreason, ← reason_at_storing_call (.new requestId) hbefore hafter]

end Libdeno.Supervisor
