import Libdeno.Supervisor.Json
import Libdeno.Supervisor.SessionRuns

/-!
# Libdeno.Supervisor.RequestFirst

REQUEST and the rest of the parent's session. `request_sent` is consulted by `send_request`
alone; the other operations go by the state, which moves to `AwaitAccepted` with the HELLO
and not with the REQUEST. So between an accepted HELLO and the REQUEST a CANCEL is approved
and an ACCEPTED accepted, and from there on everything else.

`request_first` says that these two calls, in this one situation, are the only way in which
anything gets ahead of the REQUEST.
-/

namespace Libdeno.Supervisor

open SupervisorParentSession

variable {json : SerdeJson SupervisorTerminal} {s s' : SupervisorParentSession} {b : Bool}

/-- The call approves a CANCEL, accepts an ACCEPTED or a TERMINAL, or authorises START. -/
def ParentOp.NeedsRequest (json : SerdeJson SupervisorTerminal) (op : ParentOp)
    (s : SupervisorParentSession) : Prop :=
  match op with
  | .sendCancel reason => (s.sendCancel reason).1 = .ok true
  | .authorizeStart requested => (s.authorizeStart requested).1 = .ok true
  | .receiveChildFrame frame =>
      (s.receiveChildFrame json frame).1 = .ok .accepted ∨
        (s.receiveChildFrame json frame).1 = .ok .terminal
  | _ => False

/-- `send_request` has succeeded in a run. -/
def RequestSucceeded (json : SerdeJson SupervisorTerminal) (s : SupervisorParentSession)
    (ops : List ParentOp) : Prop :=
  ∃ first later, ops = first ++ .sendRequest :: later ∧
    (runParent json s first).sendRequest.1 = .ok ()

/-- A CANCEL or a well-formed ACCEPTED after the HELLO and before the REQUEST. -/
def ParentOp.Early (op : ParentOp) (s : SupervisorParentSession) : Prop :=
  s.state = .awaitAccepted ∧ s.requestSent = false ∧
    match op with
    | .sendCancel _ => True
    | .receiveChildFrame frame =>
        frame.kind = .accepted ∧ frame.requestId = s.requestId ∧ frame.payload = []
    | _ => False

/-! ### The flag -/

theorem sendRequest_of_sent (h : s.requestSent = true) :
    s.sendRequest.1 = .error (invalidData "supervisor REQUEST is out of order") := by
  rw [sendRequest, if_neg]
  simp [h]

/-- `request_sent` is set, and never taken back. -/
theorem ParentChange.requestSent_stable (change : ParentChange s b s')
    (h : s.requestSent = true) : s'.requestSent = true := by
  cases change <;> first | exact h | rfl

theorem receiveTerminal_requestSent {terminal : SupervisorTerminal} :
    (s.receiveTerminal terminal).2.requestSent = s.requestSent := by
  unfold receiveTerminal
  split
  · split <;> rfl
  · split
    · split
      · split <;> rfl
      · rfl
    · rfl
    · rfl
    · rfl

/-- A `send_request` that sets `request_sent` succeeds. -/
theorem sendRequest_sets (before : s.requestSent = false)
    (after : s.sendRequest.2.requestSent = true) : s.sendRequest.1 = .ok () := by
  unfold sendRequest at after ⊢
  split
  · rfl
  · next h =>
    rw [if_neg h, before] at after
    cases after

/-- The other calls leave `request_sent` alone. -/
theorem apply_requestSent {op : ParentOp} (h : op ≠ .sendRequest) :
    (op.apply json s).2.requestSent = s.requestSent := by
  cases op with
  | sendRequest => exact absurd rfl h
  | acceptHello frame token =>
      show (s.acceptHello frame token).2.requestSent = s.requestSent
      unfold acceptHello
      split <;> rfl
  | sendCancel reason =>
      show (s.sendCancel reason).2.requestSent = s.requestSent
      unfold sendCancel
      split
      · split
        · rfl
        · split <;> rfl
      · split <;> rfl
  | authorizeStart requested =>
      show (s.authorizeStart requested).2.requestSent = s.requestSent
      unfold authorizeStart
      split
      · rfl
      · cases requested <;> rfl
  | receiveChildFrame frame =>
      show (s.receiveChildFrame json frame).2.requestSent = s.requestSent
      unfold receiveChildFrame
      split
      · rfl
      · split
        · split <;> rfl
        · split
          · rfl
          · split <;> rfl
          · rfl
        · split
          · rfl
          · split
            · rfl
            · exact receiveTerminal_requestSent
        · rfl

/-- `request_sent` is set exactly when a `send_request` has succeeded. -/
theorem requestSent_iff (ops : List ParentOp) (fresh : s.requestSent = false) :
    (runParent json s ops).requestSent = true ↔ RequestSucceeded json s ops := by
  constructor
  · intro sent
    induction ops generalizing s with
    | nil =>
        rw [runParent_nil, fresh] at sent
        cases sent
    | cons op ops ih =>
        cases hnext : (op.apply json s).2.requestSent with
        | true =>
            have hop : op = .sendRequest := by
              by_contra h
              rw [apply_requestSent h, fresh] at hnext
              cases hnext
            subst hop
            exact ⟨[], ops, rfl, sendRequest_sets fresh hnext⟩
        | false =>
            obtain ⟨first, later, rfl, hok⟩ := ih hnext sent
            exact ⟨op :: first, later, rfl, hok⟩
  · rintro ⟨first, later, rfl, hok⟩
    rw [runParent_append, runParent_cons]
    refine runParent_induction later ?_ fun s op h => (op.apply_change s).requestSent_stable h
    show (runParent json s first).sendRequest.2.requestSent = true
    unfold sendRequest at hok ⊢
    split
    · rfl
    · next h =>
      rw [if_neg h] at hok
      cases hok

/-! ### Before the REQUEST -/

/-- A session nothing has gone wrong with: before the REQUEST it waits for the HELLO or for
the ACCEPTED. -/
def Waiting (s : SupervisorParentSession) : Prop :=
  s.requestSent = false → s.state = .awaitHello ∨ s.state = .awaitAccepted

/-- What `send_cancel` does before the ACCEPTED. -/
theorem sendCancel_waiting (inv : ParentInvariant s) (reason : CancelReason) :
    (s.state = .awaitHello →
      s.sendCancel reason = (.error (invalidData "supervisor CANCEL is out of order"), s)) ∧
    (s.state = .awaitAccepted → (s.sendCancel reason).1 = .ok true) := by
  constructor
  · intro hstate
    have hnone := inv.no_reason (by simp [hstate])
    simp only [sendCancel, hnone, hstate]
  · intro hstate
    have hnone := inv.no_reason (by simp [hstate])
    simp only [sendCancel, hnone, hstate]

/-- What `receive_child_frame` does with the frames of a child before the ACCEPTED. -/
theorem receiveChildFrame_waiting (inv : ParentInvariant s)
    (waits : s.state = .awaitHello ∨ s.state = .awaitAccepted) (frame : SupervisorFrame) :
    (s.state = .awaitAccepted ∧ frame.kind = .accepted ∧ frame.requestId = s.requestId ∧
      frame.payload = [] ∧
      s.receiveChildFrame json frame = (.ok .accepted, { s with state := .accepted })) ∨
    ∃ error, s.receiveChildFrame json frame = (.error error, s) := by
  have hterminal : s.terminal = none := by
    by_contra h
    have := inv.terminal_iff.mpr h
    rcases waits with h' | h' <;> rw [h'] at this <;> cases this
  unfold receiveChildFrame
  split
  · exact .inr ⟨_, rfl⟩
  · next hid =>
    split
    · next hkind hpayload =>
      rcases waits with hstate | hstate
      · simp only [hstate]
        exact .inr ⟨_, rfl⟩
      · have hrequest : frame.requestId = s.requestId := by
          by_contra h
          refine hid ⟨h, fun hello => ?_⟩
          rw [hkind] at hello
          cases hello.1
        simp only [hstate]
        exact .inl ⟨trivial, hkind, hrequest, hpayload, trivial⟩
    · rcases waits with hstate | hstate <;> simp only [hstate] <;> exact .inr ⟨_, rfl⟩
    · split
      · exact .inr ⟨_, rfl⟩
      · split
        · exact .inr ⟨_, rfl⟩
        · unfold receiveTerminal
          rw [hterminal]
          rcases waits with hstate | hstate <;> simp only [hstate] <;> exact .inr ⟨_, rfl⟩
    · exact .inr ⟨_, rfl⟩

/-- A call that is not early keeps it so. -/
theorem Waiting.apply {op : ParentOp} (waiting : Waiting s) (inv : ParentInvariant s)
    (timely : ¬ op.Early s) : Waiting (op.apply json s).2 := by
  intro unsent'
  have unsent : s.requestSent = false := by
    cases h : s.requestSent with
    | false => rfl
    | true =>
        have change : ParentChange s (op.authorizes s) (op.apply json s).2 := op.apply_change s
        have sent := change.requestSent_stable h
        rw [unsent'] at sent
        cases sent
  have waits := waiting unsent
  cases op with
  | acceptHello frame token =>
      show (s.acceptHello frame token).2.state = _ ∨ (s.acceptHello frame token).2.state = _
      unfold acceptHello
      split
      · exact waits
      · exact .inr rfl
  | sendRequest =>
      show s.sendRequest.2.state = _ ∨ s.sendRequest.2.state = _
      unfold sendRequest
      split <;> exact waits
  | sendCancel reason =>
      rcases waits with hstate | hstate
      · have hsame := (sendCancel_waiting inv reason).1 hstate
        show (s.sendCancel reason).2.state = _ ∨ _
        rw [hsame]
        exact .inl hstate
      · exact absurd ⟨hstate, unsent, trivial⟩ timely
  | authorizeStart requested =>
      have hne : s.state ≠ .accepted := by
        rcases waits with h | h <;> rw [h] <;> decide
      show (s.authorizeStart requested).2.state = _ ∨ (s.authorizeStart requested).2.state = _
      unfold authorizeStart
      rw [if_pos hne]
      exact waits
  | receiveChildFrame frame =>
      show (s.receiveChildFrame json frame).2.state = _ ∨
        (s.receiveChildFrame json frame).2.state = _
      rcases receiveChildFrame_waiting inv waits frame with
        ⟨hstate, hkind, hid, hpayload, -⟩ | ⟨error, hsame⟩
      · exact absurd ⟨hstate, unsent, hkind, hid, hpayload⟩ timely
      · rw [hsame]
        exact waits

/-- Such a session grants nothing before the REQUEST but to an early call. -/
theorem Waiting.early {op : ParentOp} (waiting : Waiting s) (inv : ParentInvariant s)
    (needs : op.NeedsRequest json s) (unsent : s.requestSent = false) : op.Early s := by
  have waits := waiting unsent
  cases op with
  | sendCancel reason =>
      rcases waits with hstate | hstate
      · have needs : (s.sendCancel reason).1 = .ok true := needs
        rw [(sendCancel_waiting inv reason).1 hstate] at needs
        cases needs
      · exact ⟨hstate, unsent, trivial⟩
  | authorizeStart requested =>
      have granted := authorizeStart_eq_true.mp needs
      rcases waits with h | h <;> simp [authorizes, h] at granted
  | receiveChildFrame frame =>
      have needs : (s.receiveChildFrame json frame).1 = .ok .accepted ∨
        (s.receiveChildFrame json frame).1 = .ok .terminal := needs
      rcases receiveChildFrame_waiting inv waits frame with
        ⟨hstate, hkind, hid, hpayload, -⟩ | ⟨error, hsame⟩
      · exact ⟨hstate, unsent, hkind, hid, hpayload⟩
      · rw [hsame] at needs
        rcases needs with h | h <;> cases h
  | acceptHello frame token => exact needs.elim
  | sendRequest => exact needs.elim

/-- An early call is granted. -/
theorem ParentOp.Early.needs {op : ParentOp} (early : op.Early s) (inv : ParentInvariant s) :
    op.NeedsRequest json s := by
  obtain ⟨hstate, -, hop⟩ := early
  cases op with
  | sendCancel reason => exact (sendCancel_waiting inv reason).2 hstate
  | receiveChildFrame frame =>
      obtain ⟨hkind, hid, hpayload⟩ := hop
      left
      unfold SupervisorParentSession.receiveChildFrame
      rw [if_neg (fun h => h.1 hid), hkind, hpayload, hstate]
  | acceptHello frame token => exact hop.elim
  | sendRequest => exact hop.elim
  | authorizeStart requested => exact hop.elim

/-! ### Runs -/

/-- A run without early calls. -/
def NeverEarly (json : SerdeJson SupervisorTerminal) (s : SupervisorParentSession)
    (ops : List ParentOp) : Prop :=
  ∀ before op after, ops = before ++ op :: after → ¬ op.Early (runParent json s before)

/-- In a run without early calls the session waits until the REQUEST. -/
theorem Waiting.run {ops : List ParentOp} (waiting : Waiting s) (inv : ParentInvariant s)
    (timely : NeverEarly json s ops) : Waiting (runParent json s ops) := by
  induction ops generalizing s with
  | nil => exact waiting
  | cons op ops ih =>
      have hop : ¬ op.Early s := timely [] op ops rfl
      refine ih (waiting.apply inv hop) ((op.apply_change s).invariant inv) ?_
      intro before next after hops
      exact timely (op :: before) next after (by rw [hops, List.cons_append])

theorem NeverEarly.first {before after : List ParentOp} {op : ParentOp}
    (timely : NeverEarly json s (before ++ op :: after)) : NeverEarly json s before := by
  intro first next later hbefore
  refine timely first next (later ++ op :: after) ?_
  rw [hbefore, List.append_assoc, List.cons_append]

/-- Whatever sequence of calls and frames a fresh parent session has seen: nothing was
granted ahead of a successful `send_request` if and only if no CANCEL was asked for and no
well-formed ACCEPTED arrived between the HELLO and the REQUEST. -/
theorem request_first (json : SerdeJson SupervisorTerminal) (requestId : UInt64)
    (ops : List ParentOp) :
    (∀ before op after, ops = before ++ op :: after →
      op.NeedsRequest json (runParent json (.new requestId) before) →
        RequestSucceeded json (.new requestId) before) ↔
    NeverEarly json (.new requestId) ops := by
  have fresh : (SupervisorParentSession.new requestId).requestSent = false := rfl
  have inv : ∀ before, ParentInvariant (runParent json (.new requestId) before) :=
    fun before => (ParentInvariant.new requestId).run before
  constructor
  · intro first before op after hops early
    have sent := (requestSent_iff before fresh).mpr
      (first before op after hops (early.needs (inv before)))
    rw [early.2.1] at sent
    cases sent
  · intro timely before op after hops needs
    rw [← requestSent_iff before fresh]
    by_contra unsent
    have unsent := Bool.eq_false_iff.mpr unsent
    have start : Waiting (SupervisorParentSession.new requestId) := fun _ => .inl rfl
    subst hops
    have waiting := start.run (.new requestId) timely.first
    exact timely before op after rfl (waiting.early (inv before) needs unsent)

/-! ### A CANCEL without a REQUEST -/

def sampleToken : SupervisorToken := ⟨List.replicate 16 9, rfl⟩

def sampleHello : SupervisorFrame := ⟨.hello, 0, sampleToken.bytes⟩

/-- After the HELLO a CANCEL is approved although no REQUEST was sent. -/
theorem request_first_cancelled :
    ¬ ∀ before op after,
      [.acceptHello sampleHello sampleToken, .sendCancel .user] = before ++ op :: after →
        op.NeedsRequest jsonTerminals (runParent jsonTerminals (.new 1) before) →
          RequestSucceeded jsonTerminals (.new 1) before := by
  intro first
  have granted := first [.acceptHello sampleHello sampleToken] (.sendCancel .user) [] rfl rfl
  obtain ⟨calls, later, hcalls, -⟩ := granted
  rcases calls with _ | ⟨call, calls⟩
  · cases hcalls
  · have := (List.cons.inj hcalls).2
    exact absurd this (by simp)

end Libdeno.Supervisor
