import Libdeno.Limits.Budget
import Libdeno.Output.Collection
import Libdeno.Subprocess.Child
import Libdeno.Subprocess.Request

/-!
# Libdeno.Subprocess.Legacy

`run_in_subprocess` and `run_in_subprocess_with_output` (subprocess.rs): the request is checked,
the child spawned, the request written by a thread of its own within ten seconds, and the child
waited for.

However the calls fail, and whenever the child or the writer ends, a run leaves no child behind
that the system would have let it reap; it answers with an exit code only after the whole request
was written; and the slot of the writer's budget is given back unless the writer is still blocked
(`run_in_subprocess_accounts`).
-/

namespace Libdeno.Subprocess

open Hoare Output Supervisor

/-! ### `write_child_request` -/

/-- `MAX_ACTIVE_HANDSHAKE_WRITERS`. -/
def MAX_ACTIVE_HANDSHAKE_WRITERS : Nat := 32

/-- `reserve_handshake_writer`. -/
def reserveHandshakeWriter : Sys (Except IoError Unit) := do
  let w ← get
  if MAX_ACTIVE_HANDSHAKE_WRITERS ≤ w.active then
    return .error (Limits.exhausted "subprocess handshake writer"
      (BitVec.ofNat 64 w.active) (BitVec.ofNat 64 MAX_ACTIVE_HANDSHAKE_WRITERS))
  else
    set { w with active := w.active + 1 }
    return .ok ()

/-- The writer thread is spawned with its slot; where it cannot be, the slot is dropped. -/
def spawnWriter : Sys (Except IoError Unit) := do
  let t ← turn
  match t.fault with
  | some error =>
      modify fun w => { w with active := w.active - 1 }
      return .error error
  | none =>
      modify fun w => { w with writer := .blocked }
      return .ok ()

/-- What `recv_timeout` on the writer's channel returns. -/
inductive Received
  | message (result : Except IoError Unit)
  | timeout
  | disconnected
  deriving Repr, DecidableEq

/-- `recv_timeout`. -/
def recvTimeout : Sys Received := do
  let _ ← turn
  let w ← get
  match w.writer with
  | .finished (.sent result) => return .message result
  | .finished .lost => return .disconnected
  | .none | .blocked => return .timeout

/-- What the first wait for the writer comes to. -/
def writeResult : Received → Except LibdenoError Unit
  | .message (.ok ()) => .ok ()
  | .message (.error error) => .error (.io error)
  | .timeout => .error (.timeout ("subprocess handshake timed out after 10s: host did not " ++
      "service child mode (stdin not read)"))
  | .disconnected => .error (.runtime "child stdin writer terminated unexpectedly" false)

/-- The cleanup of a failed write: the child's own end explains it, or the child is killed. -/
def failWrite (error : LibdenoError) : Sys LibdenoError := do
  match ← tryWait with
  | .ok (some status) =>
      return .runtime (s!"child exited with {status.text} before accepting the run request " ++
        s!"(request write failed: {display error})") false
  | .ok none | .error _ =>
      killAndWait
      return error

/-- `write_child_request`. -/
def writeChildRequest : Sys (Except LibdenoError Unit) := do
  match ← reserveHandshakeWriter with
  | .error error =>
      killAndWait
      return .error (.io error)
  | .ok () =>
      match ← spawnWriter with
      | .error error => do
          let error ← failWrite (.io error)
          return .error error
      | .ok () =>
          let received ← recvTimeout
          match writeResult received with
          | .ok () => return .ok ()
          | .error error =>
              let error ← failWrite error
              let _ ← recvTimeout
              return .error error

/-! ### The runs -/

/-- What `spawn_child_request` has prepared, and the executable it resolves. -/
structure Prepared where
  request : Except LibdenoError (List UInt8 × Markers × String)
  executable : Except IoError String

/-- `spawn_child_request`, from the check of the request on. -/
def spawnChildRequest (prepared : Prepared) : Sys (Except LibdenoError Unit) := do
  match prepared.request, prepared.executable with
  | .error error, _ => return .error error
  | .ok _, .error error => return .error (.io error)
  | .ok _, .ok _ =>
      match ← spawn with
      | .error error => return .error (.io error)
      | .ok () => return .ok ()

/-- The exit code of a run whose child has ended with `status`. -/
def exited (status : ExitStatus) : Except LibdenoError Int32 := .ok (status.code.getD 1)

/-- `run_in_subprocess_inner`. -/
def runInSubprocess (prepared : Prepared) : Sys (Except LibdenoError Int32) :=
  attempt (spawnChildRequest prepared) (return ()) fun () =>
  attempt writeChildRequest (return ()) fun () => do
  match ← wait with
  | .error error => return .error (.io error)
  | .ok status => return exited status

/-- The output of a run whose child has ended with `status`. -/
def collected (capture : SubprocessOutputCapture) (status : ExitStatus) :
    Except LibdenoError RunOutput :=
  match capture.error with
  | some error => .error (.io error)
  | none =>
      if capture.incomplete then
        .error (.io {
          kind := .timedOut
          message := "subprocess output capture incomplete: collection deadline expired " ++
            "before EOF; a detached child usually holds the captured stdout/stderr pipe " ++
            "open (give it stdout: \"null\" or a log file instead of \"inherit\")" })
      else
        .ok {
          exitCode := status.code.getD 1
          stdout := capture.stdout
          stderr := capture.stderr
          captureTruncated := capture.truncated }

/-- `run_in_subprocess_with_output_inner`; `readers` is what `SubprocessOutputReaders::take`
returns, and `capture` what they collect. -/
def runInSubprocessWithOutput (prepared : Prepared) (readers : Except IoError Unit)
    (capture : SubprocessOutputCapture) : Sys (Except LibdenoError RunOutput) :=
  attempt (spawnChildRequest prepared) (return ()) fun () =>
  attempt (return readers.mapError .io) killAndWait fun () =>
  attempt writeChildRequest (return ()) fun () => do
  match ← wait with
  | .error error => return .error (.io error)
  | .ok status => return collected capture status

/-! ### The budget -/

/-- The slots in use, beside those of `base`: one more while the writer is blocked. -/
def Budgeted (base : Nat) (w : World) : Prop :=
  w.active = base + if w.writer = .blocked then 1 else 0

/-- The writer has written the whole request. -/
def Sent (w : World) : Prop := w.writer = .finished (.sent (.ok ()))

theorem passes_writer (w : World) (t : Turn) : (w.passes t).writer = w.writer ∨
    w.writer = .blocked ∧ ∃ how, (w.passes t).writer = .finished how := by
  unfold World.passes World.writerEnds
  cases t.writer with
  | none => exact .inl rfl
  | some how =>
      dsimp only
      split
      · next hblocked => exact .inr ⟨hblocked, how, rfl⟩
      · exact .inl rfl

theorem budgeted_framed (base : Nat) : Framed (Budgeted base) where
  passes w t hw := by
    have hkept : ∀ child, Budgeted base { w with child } := fun _ => hw
    unfold World.passes
    cases t.writer with
    | none => exact hkept _
    | some how =>
        unfold Budgeted at hw ⊢
        cases hwriter : w.writer with
        | none => simpa [World.writerEnds, hwriter] using hw
        | blocked => simp [World.writerEnds, hwriter, hw]
        | finished ended => simpa [World.writerEnds, hwriter] using hw
  script w rest hw := hw
  child w child hw := hw
  waitFailed w hw := hw

theorem sent_framed : Framed Sent where
  passes w t hw := by
    rcases passes_writer w t with hsame | ⟨hblocked, -⟩
    · exact hsame.trans hw
    · rw [Sent, hblocked] at hw
      cases hw
  script w rest hw := hw
  child w child hw := hw
  waitFailed w hw := hw

/-- No writer was spawned yet. -/
def NoWriter (w : World) : Prop := w.writer = .none

theorem noWriter_framed : Framed NoWriter where
  passes w t hw := by
    rcases passes_writer w t with hsame | ⟨hblocked, -⟩
    · exact hsame.trans hw
    · rw [NoWriter, hblocked] at hw
      cases hw
  script w rest hw := hw
  child w child hw := hw
  waitFailed w hw := hw

theorem reserveHandshakeWriter_child :
    Ensures Never Spawned reserveHandshakeWriter fun _ => Spawned := by
  refine (Ensures.get (Q := fun seen w => Spawned w ∧ seen = w) fun w hw => ⟨hw, rfl⟩).bind
    fun seen => .ite (fun _ => .pure fun w hw => hw.1) fun _ => ?_
  refine Ensures.bind (Q := fun _ => Spawned) (.set fun w hw => ?_) fun _ => .pure fun w hw => hw
  obtain ⟨hw, rfl⟩ := hw
  exact hw

theorem spawnWriter_child : Ensures Never Spawned spawnWriter fun _ => Spawned := by
  refine spawned_stable.turn.bind fun t => ?_
  cases t.fault with
  | some error =>
      exact Ensures.bind (Q := fun _ => Spawned) (.modify fun w hw => hw)
        fun _ => .pure fun w hw => hw
  | none =>
      exact Ensures.bind (Q := fun _ => Spawned) (.modify fun w hw => hw)
        fun _ => .pure fun w hw => hw

/-- The slot is taken, or nothing is. -/
theorem reserveHandshakeWriter_budget (base : Nat) :
    Ensures Never (fun w => Budgeted base w ∧ NoWriter w) reserveHandshakeWriter fun answer w =>
      match answer with
      | .ok () => Budgeted (base + 1) w ∧ NoWriter w
      | .error _ => Budgeted base w := by
  refine (Ensures.get (Q := fun seen w => (Budgeted base w ∧ NoWriter w) ∧ seen = w)
    fun w hw => ⟨hw, rfl⟩).bind fun seen => .ite (fun _ => .pure fun w hw => hw.1.1) fun _ => ?_
  refine Ensures.bind (Q := fun _ w => Budgeted (base + 1) w ∧ NoWriter w) (.set fun w hw => ?_)
    fun _ => .pure fun w hw => hw
  obtain ⟨⟨hbudget, hnone⟩, rfl⟩ := hw
  refine ⟨?_, hnone⟩
  unfold Budgeted NoWriter at *
  simp only [hnone, reduceCtorEq, if_false, Nat.add_zero] at hbudget ⊢
  rw [hbudget]

/-- The slot goes to the writer, or is given back. -/
theorem spawnWriter_budget (base : Nat) :
    Ensures Never (fun w => Budgeted (base + 1) w ∧ NoWriter w) spawnWriter
      fun _ => Budgeted base := by
  have stable : Stable fun w => Budgeted (base + 1) w ∧ NoWriter w :=
    ⟨fun w t hw => ⟨(budgeted_framed _).passes w t hw.1, noWriter_framed.passes w t hw.2⟩,
      fun w rest hw => hw⟩
  refine stable.turn.bind fun t => ?_
  cases t.fault with
  | some error =>
      refine Ensures.bind (Q := fun _ => Budgeted base) (.modify fun w hw => ?_)
        fun _ => .pure fun w hw => hw
      obtain ⟨hbudget, hnone⟩ := hw
      unfold Budgeted NoWriter at *
      simp only [hnone, reduceCtorEq, if_false, Nat.add_zero] at hbudget ⊢
      omega
  | none =>
      refine Ensures.bind (Q := fun _ => Budgeted base) (.modify fun w hw => ?_)
        fun _ => .pure fun w hw => hw
      obtain ⟨hbudget, hnone⟩ := hw
      unfold Budgeted NoWriter at *
      simp only [hnone, reduceCtorEq, if_false, Nat.add_zero] at hbudget
      simpa using hbudget

theorem recvTimeout_stable {P : World → Prop} (stable : Stable P) :
    Ensures Never P recvTimeout fun received w =>
      P w ∧ (received = .message (.ok ()) → Sent w) := by
  refine stable.turn.bind fun _ => ?_
  refine (Ensures.get (Q := fun seen w => P w ∧ seen = w) fun w hw => ⟨hw, rfl⟩).bind
    fun seen => ?_
  have hother : ∀ received : Received, received ≠ .message (.ok ()) →
      Ensures Never (fun w => P w ∧ seen = w) (return received : Sys Received)
        fun received w => P w ∧ (received = .message (.ok ()) → Sent w) :=
    fun received hne => .pure fun w hw => ⟨hw.1, fun heq => absurd heq hne⟩
  rcases hwriter : seen.writer with - | - | how
  · exact hother _ nofun
  · exact hother _ nofun
  · cases how with
    | lost => exact hother _ nofun
    | sent result =>
        refine .pure fun w hw => ?_
        obtain ⟨hw, rfl⟩ := hw
        refine ⟨hw, fun heq => ?_⟩
        rw [Sent, hwriter, show result = .ok () by simpa using heq]

/-- A failed write leaves no child behind. -/
theorem failWrite_child (error : LibdenoError) :
    Ensures Never Spawned (failWrite error) fun _ => Accounted := by
  refine tryWait_spec.bind fun answer => ?_
  have hkilled : Ensures Never Spawned (do killAndWait; return error : Sys LibdenoError)
      fun _ => Accounted := killAndWait_spec.bind fun _ => .pure fun w hw => hw
  rcases answer with failed | (- | status)
  · exact hkilled
  · exact hkilled
  · exact .pure fun w hw => ReapedWith.accounted hw

theorem Framed.failWrite {P : World → Prop} (framed : Framed P) (error : LibdenoError) :
    Ensures Never P (failWrite error) fun _ => P := by
  refine framed.tryWait.bind fun answer => ?_
  have hkilled : Ensures Never P (do Subprocess.killAndWait; return error : Sys LibdenoError)
      fun _ => P := framed.killAndWait.bind fun _ => .pure fun w hw => hw
  rcases answer with failed | (- | status)
  · exact hkilled
  · exact hkilled
  · exact .pure fun w hw => hw

/-- The request was written and the child is there, or the child is accounted for. -/
theorem writeChildRequest_child :
    Ensures Never Spawned writeChildRequest fun answer w => match answer with
      | .ok () => Spawned w ∧ Sent w
      | .error _ => Accounted w := by
  refine reserveHandshakeWriter_child.bind fun answer => ?_
  rcases answer with error | -
  · exact killAndWait_spec.bind fun _ => .pure fun w hw => hw
  · refine spawnWriter_child.bind fun answer => ?_
    rcases answer with error | -
    · exact (failWrite_child _).bind fun _ => .pure fun w hw => hw
    · refine (recvTimeout_stable spawned_stable).bind fun received => ?_
      have hfailed : ∀ error, Ensures Never
          (fun w => Spawned w ∧ (received = .message (.ok ()) → Sent w)) (do
            let error ← failWrite error
            let _ ← recvTimeout
            return .error error : Sys (Except LibdenoError Unit)) fun answer w => match answer with
          | .ok () => Spawned w ∧ Sent w
          | .error _ => Accounted w := fun error =>
        ((failWrite_child error).conseq (fun w hw => hw.1) fun _ w hw => hw).bind fun _ =>
          (recvTimeout_stable accounted_stable).bind fun _ => .pure fun w hw => hw.1
      rcases received with (failed | -) | - | -
      · exact hfailed _
      · exact .pure fun w hw => ⟨hw.1, hw.2 rfl⟩
      · exact hfailed _
      · exact hfailed _

/-- The slot of the writer is in use while it is blocked, and no longer. -/
theorem writeChildRequest_budget (base : Nat) :
    Ensures Never (fun w => Budgeted base w ∧ NoWriter w) writeChildRequest
      fun _ => Budgeted base := by
  refine (reserveHandshakeWriter_budget base).bind fun answer => ?_
  rcases answer with error | -
  · exact (budgeted_framed base).killAndWait.bind fun _ => .pure fun w hw => hw
  · refine (spawnWriter_budget base).bind fun answer => ?_
    rcases answer with error | -
    · exact ((budgeted_framed base).failWrite _).bind fun _ => .pure fun w hw => hw
    · refine ((recvTimeout_stable (budgeted_framed base).stable).weaken
        fun _ _ hw => hw.1).bind fun received => ?_
      cases hresult : writeResult received with
      | ok u => exact .pure fun w hw => hw
      | error error =>
          exact ((budgeted_framed base).failWrite error).bind fun _ =>
            (recvTimeout_stable (budgeted_framed base).stable).bind fun _ =>
              .pure fun w hw => hw.1

/-! ### The runs account for their child -/

/-- The child is accounted for, and a result is what `tail` makes of the status of a child that
was sent its request. -/
def Completed {α : Type} (tail : ExitStatus → Except LibdenoError α)
    (answer : Except LibdenoError α) (w : World) : Prop :=
  Accounted w ∧ ∀ value, answer = .ok value →
    ∃ status, ReapedWith status w ∧ Sent w ∧ tail status = .ok value

theorem completed_error {α : Type} (tail : ExitStatus → Except LibdenoError α)
    (error : LibdenoError) {w : World} (hw : Accounted w) : Completed tail (.error error) w :=
  ⟨hw, nofun⟩

theorem spawnChildRequest_child (prepared : Prepared) :
    Ensures Never (fun w => w.child = none) (spawnChildRequest prepared) fun answer w =>
      match answer with
      | .ok () => Spawned w
      | .error _ => w.child = none := by
  unfold spawnChildRequest
  rcases prepared.request with error | request
  · exact .pure fun w hw => hw
  · rcases prepared.executable with error | executable
    · exact .pure fun w hw => hw
    · refine spawn_spec.bind fun answer => ?_
      rcases answer with error | -
      · exact .pure fun w hw => hw
      · exact .pure fun w hw => hw

theorem Framed.spawnChildRequest {P : World → Prop} (framed : Framed P) (prepared : Prepared) :
    Ensures Never P (spawnChildRequest prepared) fun _ => P := by
  unfold Subprocess.spawnChildRequest
  rcases prepared.request with error | request
  · exact .pure fun w hw => hw
  · rcases prepared.executable with error | executable
    · exact .pure fun w hw => hw
    · refine framed.spawn.bind fun answer => ?_
      rcases answer with error | -
      · exact .pure fun w hw => hw
      · exact .pure fun w hw => hw

/-- The request is written and the child waited for. -/
theorem writtenRun_completed {α : Type} (tail : ExitStatus → Except LibdenoError α) :
    Ensures Never Spawned (attempt writeChildRequest (return ()) fun () => do
      match ← wait with
      | .error error => return .error (.io error)
      | .ok status => return tail status) (Completed tail) := by
  refine Ensures.attempt writeChildRequest_child (fun error => .pure fun w hw =>
    completed_error tail error hw) fun () => ?_
  refine (wait_spec.and sent_framed.wait).bind fun answer => ?_
  rcases answer with error | status
  · exact .pure fun w hw => completed_error tail _ (.inr (.inr hw.1.2))
  · refine .pure fun w hw => ⟨hw.1.accounted, fun value hvalue => ?_⟩
    exact ⟨status, hw.1, hw.2, hvalue⟩

theorem writtenRun_budget {α : Type} (base : Nat) (tail : ExitStatus → Except LibdenoError α) :
    Ensures Never (fun w => Budgeted base w ∧ NoWriter w)
      (attempt writeChildRequest (return ()) fun () => do
        match ← wait with
        | .error error => return .error (.io error)
        | .ok status => return tail status) fun _ => Budgeted base := by
  refine Ensures.attempt (writeChildRequest_budget base) (fun error => .pure fun w hw => hw)
    fun () => (budgeted_framed base).wait.bind fun answer => ?_
  rcases answer with error | status
  · exact .pure fun w hw => hw
  · exact .pure fun w hw => hw

theorem runInSubprocess_completed (prepared : Prepared) :
    Ensures Never (fun w => w.child = none) (runInSubprocess prepared) (Completed exited) :=
  Ensures.attempt (spawnChildRequest_child prepared) (fun error => .pure fun _ hw =>
    completed_error exited error (.inl hw)) fun () => writtenRun_completed exited

theorem runInSubprocess_budget (base : Nat) (prepared : Prepared) :
    Ensures Never (fun w => Budgeted base w ∧ NoWriter w) (runInSubprocess prepared)
      fun _ => Budgeted base := by
  have hspawn := ((budgeted_framed base).spawnChildRequest prepared).and
    (noWriter_framed.spawnChildRequest prepared)
  exact Ensures.attempt hspawn (fun error => .pure fun w hw => hw.1)
    fun () => writtenRun_budget base exited

theorem runInSubprocessWithOutput_completed (prepared : Prepared) (readers : Except IoError Unit)
    (capture : SubprocessOutputCapture) :
    Ensures Never (fun w => w.child = none) (runInSubprocessWithOutput prepared readers capture)
      (Completed (collected capture)) := by
  refine Ensures.attempt (spawnChildRequest_child prepared) (fun error => .pure fun w hw =>
    completed_error _ error (.inl hw)) fun () => ?_
  refine Ensures.attempt (C := fun _ => Spawned) (.pure fun w hw => hw) (fun error => ?_)
    fun () => writtenRun_completed (collected capture)
  exact killAndWait_spec.weaken fun _ w hw => completed_error _ error hw

theorem runInSubprocessWithOutput_budget (base : Nat) (prepared : Prepared)
    (readers : Except IoError Unit) (capture : SubprocessOutputCapture) :
    Ensures Never (fun w => Budgeted base w ∧ NoWriter w)
      (runInSubprocessWithOutput prepared readers capture) fun _ => Budgeted base := by
  have hspawn := ((budgeted_framed base).spawnChildRequest prepared).and
    (noWriter_framed.spawnChildRequest prepared)
  refine Ensures.attempt hspawn (fun error => .pure fun w hw => hw.1) fun () => ?_
  refine Ensures.attempt (C := fun _ w => Budgeted base w ∧ NoWriter w) (.pure fun w hw => hw)
    (fun error => ?_) fun () => writtenRun_budget base (collected capture)
  exact (budgeted_framed base).killAndWait.conseq (fun w hw => hw.1) fun _ w hw => hw

/-- What a run of a subprocess owes its caller. -/
structure Settled {α : Type} (tail : ExitStatus → Except LibdenoError α) (prepared : Prepared)
    (before : World) (answer : Except LibdenoError α) (after : World) : Prop where
  accounted : Accounted after
  completed : ∀ value, answer = .ok value →
    ∃ status, ReapedWith status after ∧ Sent after ∧ tail status = .ok value
  /-- The budget is as before, but for a writer that is still blocked. -/
  budgeted : after.active = before.active + if after.writer = .blocked then 1 else 0
  /-- A request that is not sent spawns nothing. -/
  refused : ∀ error, prepared.request = .error error → answer = .error error ∧ after = before

/-- A run from a process without child and writer, of which both triples hold. -/
theorem settled_of_ensures {α : Type} {tail : ExitStatus → Except LibdenoError α}
    {prepared : Prepared} {run : Sys (Except LibdenoError α)}
    (hcompleted : Ensures Never (fun w => w.child = none) run (Completed tail))
    (hbudget : ∀ base, Ensures Never (fun w => Budgeted base w ∧ NoWriter w) run
      fun _ => Budgeted base)
    (hrefused : ∀ error w, prepared.request = .error error → run w = .ok (.error error, w))
    {w : World} (hchild : w.child = none) (hwriter : w.writer = .none) :
    ∃ answer after, run w = .ok (answer, after) ∧ Settled tail prepared w answer after := by
  have hstart : Budgeted w.active w ∧ NoWriter w := by simp [Budgeted, NoWriter, hwriter]
  have hrun := (hcompleted.and (hbudget w.active)) w ⟨hchild, hstart⟩
  rcases hout : run w with never | ⟨answer, after⟩
  · rw [hout] at hrun
    exact hrun.elim
  · rw [hout] at hrun
    obtain ⟨⟨haccounted, hdone⟩, hbudgeted⟩ := hrun
    refine ⟨answer, after, rfl, haccounted, hdone, hbudgeted, fun error herror => ?_⟩
    rw [hrefused error w herror] at hout
    cases hout
    exact ⟨rfl, rfl⟩

/-- **Whatever fails, and whenever the child or the writer ends,** a run of a subprocess leaves
no child behind that it could wait for, answers with the result of a child that was sent the
whole request, and gives the slot of its writer back. -/
theorem run_in_subprocess_accounts (prepared : Prepared) (readers : Except IoError Unit)
    (capture : SubprocessOutputCapture) (w : World) (hchild : w.child = none)
    (hwriter : w.writer = .none) :
    (∃ answer after, runInSubprocess prepared w = .ok (answer, after) ∧
      Settled exited prepared w answer after) ∧
    ∃ answer after, runInSubprocessWithOutput prepared readers capture w = .ok (answer, after) ∧
      Settled (collected capture) prepared w answer after := by
  constructor
  · refine settled_of_ensures (runInSubprocess_completed prepared)
      (fun base => runInSubprocess_budget base prepared) (fun error w herror => ?_) hchild hwriter
    unfold runInSubprocess spawnChildRequest
    rw [herror]
    rfl
  · refine settled_of_ensures (runInSubprocessWithOutput_completed prepared readers capture)
      (fun base => runInSubprocessWithOutput_budget base prepared readers capture)
      (fun error w herror => ?_) hchild hwriter
    unfold runInSubprocessWithOutput spawnChildRequest
    rw [herror]
    rfl

/-- A child that exits with 3 before the request is read, and whose writer ends with it. -/
def exitsEarly : World where
  child := none
  writer := .none
  active := 5
  waitFailed := false
  script := [
    Turn.last,
    Turn.last,
    { Turn.last with
      ends := true
      status := ⟨some 3, "exit status: 3"⟩
      writer := some (.sent (.error ⟨.brokenPipe, "Broken pipe (os error 32)"⟩)) }]

/-- Its request. -/
def exitsEarlyPrepared : Prepared where
  request := .ok ([], { mode := some "1", token := some [] }, "/")
  executable := .ok "/bin/host"

theorem run_in_subprocess_accounts_sample :
    ∃ answer after, runInSubprocess exitsEarlyPrepared exitsEarly = .ok (answer, after) ∧
      Settled exited exitsEarlyPrepared exitsEarly answer after :=
  (run_in_subprocess_accounts exitsEarlyPrepared (.ok ()) ⟨[], [], false, false, false, false, none⟩
    exitsEarly rfl rfl).1

end Libdeno.Subprocess
