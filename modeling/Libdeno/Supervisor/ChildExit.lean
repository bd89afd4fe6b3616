import Libdeno.Supervisor.ChildSession
import Libdeno.Supervisor.Codec
import Libdeno.Supervisor.Json
import Libdeno.Supervisor.TerminalMapping

/-!
# Libdeno.Supervisor.ChildExit

The end of a supervised child: `supervisor_child_exit` reports a TERMINAL and chooses the
exit code of the process; the operating system keeps the low byte of it; and the parent
compares that byte with what it expects of the TERMINAL, which it computes from the reported
exit code in another way.
-/

namespace Libdeno.Supervisor

/-! ### The exit status -/

/-- What the operating system keeps of an exit code. -/
def exitByte (code : Int32) : UInt8 := code.toUInt32.toUInt8

/-- The low byte of a code in two's complement is its remainder of 256. -/
theorem exitStatus_eq (code : Int32) : exitStatus code = some ((exitByte code).toNat : Int) := by
  have hbyte : (exitByte code).toNat = code.toBitVec.toNat % 256 := by
    simp [exitByte, UInt32.toNat]
  have hint : code.toInt = code.toBitVec.toInt := rfl
  rw [exitStatus, hbyte, hint, BitVec.toInt_eq_toNat_cond]
  refine congrArg some ?_
  split <;> omega

/-- What `maybe_handle_supervisor_mode` exits with. -/
def supervisorModeExit (result : Except LibdenoError Int32) : Int32 :=
  match result with
  | .ok code => code
  | .error _ => 1

/-! ### Reporting the end -/

/-- What a call of `supervisor_child_exit` comes to: its result, the session it leaves and
the bytes it handed to the network. -/
structure ChildExit where
  result : Except LibdenoError Int32
  session : SupervisorChildSession
  sent : List UInt8

/-- `supervisor_child_exit`; the conditions and schedules are those of its write. -/
def supervisorChildExit (json : SerdeJson SupervisorTerminal) (conditions : Conditions)
    (headerSends payloadSends : SendSchedule) (state : SupervisorChildSession)
    (outcome : SupervisorOutcome) (exitCode : Option Int32)
    (category : Option SupervisorFailureCategory) (stdout stderr : List UInt8)
    (truncated : Bool) : Option ChildExit :=
  let terminal : SupervisorTerminal :=
    { outcome, exitCode, category, stdout, stderr, truncated }
  match state.markTerminal terminal with
  | (.error error, state) => some { result := .error (.io error), session := state, sent := [] }
  | (.ok _, state) =>
      match state.requestId with
      | none =>
          some { result := .error (supervisorError "supervisor child has no request ID"),
                 session := state, sent := [] }
      | some requestId =>
          match encodePayload json terminal with
          | .error error =>
              some { result := .error (.io error), session := state, sent := [] }
          | .ok payload =>
              match SupervisorFrame.new .terminal requestId payload with
              | .error error =>
                  some { result := .error (.io error), session := state, sent := [] }
              | .ok frame =>
                  match writeFrameUntil conditions frame headerSends payloadSends with
                  | none => none
                  | some written =>
                      match written.result with
                      | .error error =>
                          some { result := .error (.io error), session := state,
                                 sent := written.sent }
                      | .ok () =>
                          some { result := .ok (terminalExitCode terminal), session := state,
                                 sent := written.sent }

/-- A terminal that a child session accepts has valid shape. -/
theorem markTerminal_shape {state state' : SupervisorChildSession}
    {terminal : SupervisorTerminal} {first : Bool}
    (h : state.markTerminal terminal = (.ok first, state')) :
    validateSupervisorTerminalShape terminal = .ok () := by
  rw [SupervisorChildSession.markTerminal] at h
  split at h
  · cases h
  · assumption

/-- A call that returns an exit code has sent a TERMINAL frame of valid shape with it. -/
theorem supervisorChildExit_ok {json : SerdeJson SupervisorTerminal} {conditions : Conditions}
    {headerSends payloadSends : SendSchedule} {state : SupervisorChildSession}
    {outcome : SupervisorOutcome} {exitCode : Option Int32}
    {category : Option SupervisorFailureCategory} {stdout stderr : List UInt8}
    {truncated : Bool} {exit : ChildExit} {code : Int32}
    (h : supervisorChildExit json conditions headerSends payloadSends state outcome exitCode
      category stdout stderr truncated = some exit) (hcode : exit.result = .ok code) :
    let terminal : SupervisorTerminal :=
      { outcome, exitCode, category, stdout, stderr, truncated }
    validateSupervisorTerminalShape terminal = .ok () ∧ code = terminalExitCode terminal ∧
      ∃ frame : SupervisorFrame, exit.sent = frame.bytes ∧ frame.kind = .terminal ∧
        encodePayload json terminal = .ok frame.payload := by
  unfold supervisorChildExit at h
  dsimp only at h
  split at h
  · obtain rfl := Option.some.inj h
    cases hcode
  next first state' hmark =>
  split at h
  · obtain rfl := Option.some.inj h
    cases hcode
  next requestId hid =>
  split at h
  · obtain rfl := Option.some.inj h
    cases hcode
  next payload hpayload =>
  split at h
  · obtain rfl := Option.some.inj h
    cases hcode
  next frame hframe =>
  split at h
  · cases h
  next written hwritten =>
  split at h
  · obtain rfl := Option.some.inj h
    cases hcode
  next hresult =>
  obtain rfl := Option.some.inj h
  have fits := encodePayload_length hpayload
  rw [SupervisorFrame.new_ok fits] at hframe
  obtain rfl := Except.ok.inj hframe
  refine ⟨markTerminal_shape hmark, (Except.ok.inj hcode).symm, ⟨.terminal, requestId, payload⟩,
    ?_, rfl, hpayload⟩
  exact (writeFrameUntil_spec fits hwritten).1 hresult

/-! ### What the parent makes of it -/

/-- The parent's check passes with the status it expects. -/
theorem validateSupervisorTerminalStatus_expected (terminal : SupervisorTerminal) :
    validateSupervisorTerminalStatus terminal (some (expectedStatus terminal)) false =
      .ok () := by
  simp [validateSupervisorTerminalStatus]

/-- Whatever outcome and exit code a child ends with: if `supervisor_child_exit` returns an
exit code, then the frame it has sent carries exactly that terminal, of valid shape, and the
low byte of the code is the status the parent expects with it, so that the parent's mapping
adds nothing to the terminal and the cancellation it recorded. If the call fails the process
exits with 1, which is the status expected with every terminal but a completed one. -/
theorem honest_child_passes {json : SerdeJson SupervisorTerminal}
    (faithful : json.Faithful fun terminal =>
      validateSupervisorTerminalShape terminal = .ok ())
    {conditions : Conditions} {headerSends payloadSends : SendSchedule}
    {state : SupervisorChildSession} {outcome : SupervisorOutcome} {exitCode : Option Int32}
    {category : Option SupervisorFailureCategory} {stdout stderr : List UInt8}
    {truncated : Bool} {exit : ChildExit}
    (h : supervisorChildExit json conditions headerSends payloadSends state outcome exitCode
      category stdout stderr truncated = some exit) :
    let terminal : SupervisorTerminal :=
      { outcome, exitCode, category, stdout, stderr, truncated }
    let status := some ((exitByte (supervisorModeExit exit.result)).toNat : Int)
    (∀ code, exit.result = .ok code →
      (∃ frame : SupervisorFrame, exit.sent = frame.bytes ∧ frame.kind = .terminal ∧
        decodePayload json frame.payload = .ok terminal) ∧
      validateSupervisorTerminalShape terminal = .ok () ∧
      validateSupervisorTerminalStatus terminal status false = .ok () ∧
      ∀ recorded, mapSupervisorTerminalWithCancellation terminal status false recorded =
        reconciled terminal recorded) ∧
    ∀ error, exit.result = .error error → outcome ≠ .completed →
      validateSupervisorTerminalStatus terminal status false = .ok () := by
  intro terminal status
  constructor
  · intro code hcode
    obtain ⟨shape, hexit, frame, hsent, hkind, hpayload⟩ := supervisorChildExit_ok h hcode
    have hstatus : status = some (expectedStatus terminal) := by
      show some ((exitByte (supervisorModeExit exit.result)).toNat : Int) = _
      rw [hcode, supervisorModeExit, hexit, ← exitStatus_eq]
      exact exitStatus_terminalExitCode shape
    refine ⟨⟨frame, hsent, hkind, decodePayload_encodePayload faithful shape hpayload⟩, shape,
      ?_, fun recorded => mapSupervisorTerminal_eq shape (.inr hstatus) recorded⟩
    rw [hstatus]
    exact validateSupervisorTerminalStatus_expected terminal
  · intro error herror failed
    have hstatus : status = some (expectedStatus terminal) := by
      show some ((exitByte (supervisorModeExit exit.result)).toNat : Int) = _
      rw [herror, supervisorModeExit, expectedStatus]
      cases outcome with
      | completed => exact absurd rfl failed
      | failed => rfl
      | cancelled => rfl
      | deadline => rfl
    rw [hstatus]
    exact validateSupervisorTerminalStatus_expected terminal

/-! ### A negative exit code -/

/-- A write that one `send` takes whole. -/
def wholeSend : SendSchedule where
  turns := [⟨⟨false, 0⟩, .ok (maxSupervisorFramePayload + supervisorHeaderLen), ⟨false, 0⟩, []⟩]
  final := ⟨false, 0⟩

theorem writeUntil_wholeSend {bytes : List UInt8}
    (fits : bytes.length ≤ maxSupervisorFramePayload + supervisorHeaderLen) :
    writeUntil { deadline := none, watched := false } wholeSend bytes = some (.ok (), bytes) := by
  have hcheck : ∀ seen, Conditions.check { deadline := none, watched := false } seen = .ok () :=
    fun seen => rfl
  have hcount : ¬ maxSupervisorFramePayload + supervisorHeaderLen = 0 := by decide
  rw [writeUntil, wholeSend, writeLoop]
  by_cases hdone : bytes = []
  · rw [if_pos hdone, hcheck, hdone]
  · rw [if_neg hdone, hcheck]
    simp only [if_neg hcount]
    rw [writeLoop, if_pos (List.drop_eq_nil_of_le fits), hcheck, List.take_of_length_le fits]
    simp

/-- A child that completes with the exit code -1: the status is 255, and passes. -/
theorem honest_child_passes_negative :
    ∃ exit, supervisorChildExit jsonTerminals { deadline := none, watched := false } wholeSend
        wholeSend ⟨some 1, .started, none, none⟩ .completed (some (-1)) none [] [] false =
          some exit ∧
      exit.result = .ok (-1) ∧
      validateSupervisorTerminalStatus ⟨.completed, some (-1), none, [], [], false⟩ (some 255)
        false = .ok () := by
  have shape : validateSupervisorTerminalShape
      ⟨.completed, some (-1), none, [], [], false⟩ = .ok () := rfl
  obtain ⟨payload, hpayload⟩ := encodePayload_ok jsonTerminals_faithful shape
  have fits := encodePayload_length hpayload
  have hwrite : writeFrameUntil { deadline := none, watched := false } ⟨.terminal, 1, payload⟩
      wholeSend wholeSend = some ⟨.ok (), SupervisorFrame.bytes ⟨.terminal, 1, payload⟩, false⟩ := by
    rw [writeFrameUntil, if_neg (Nat.not_lt.mpr fits), encodeHeader_ok fits]
    dsimp only
    rw [writeUntil_wholeSend (by rw [Header.length_bytes]; omega)]
    dsimp only
    rw [writeUntil_wholeSend (Nat.le_add_right_of_le fits)]
    rfl
  have hexit : supervisorChildExit jsonTerminals { deadline := none, watched := false } wholeSend
      wholeSend ⟨some 1, .started, none, none⟩ .completed (some (-1)) none [] [] false =
        some ⟨.ok (-1), ⟨some 1, .terminal, none,
          some ⟨.completed, some (-1), none, [], [], false⟩⟩,
          SupervisorFrame.bytes ⟨.terminal, 1, payload⟩⟩ := by
    have hmark : SupervisorChildSession.markTerminal ⟨some 1, .started, none, none⟩
        ⟨.completed, some (-1), none, [], [], false⟩ = (.ok true, ⟨some 1, .terminal, none,
          some ⟨.completed, some (-1), none, [], [], false⟩⟩) := rfl
    unfold supervisorChildExit
    dsimp only
    rw [hmark]
    dsimp only
    rw [hpayload]
    dsimp only
    rw [SupervisorFrame.new_ok fits]
    dsimp only
    rw [hwrite]
    rfl
  have hbyte : ((exitByte (supervisorModeExit (.ok (-1)))).toNat : Int) = 255 := by decide
  have passes := ((honest_child_passes jsonTerminals_faithful hexit).1 (-1) rfl).2.2.1
  rw [hbyte] at passes
  exact ⟨_, hexit, rfl, passes⟩

end Libdeno.Supervisor
