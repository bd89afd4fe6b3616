import Libdeno.Executor.Dispatch
import Libdeno.Library.Latch
import Libdeno.Runs.Exclusive

/-!
# Libdeno.Runs.Captured

The entry points of runs in this process around their lease (lib.rs, runtime.rs):
`run_with_output_observed` and `run_sync_output`, `run_with_exit_code`, and the async
`run_with_output_async_guarded` with its `AsyncRunGuard`. Any number of calls are under way, a
future may be dropped wherever it waits, and the runs and their workers write to the standard
streams, which belong to the process.

The steps of the lease are those of `Runs.ThreadStep`, so that the calls, looked at through their
leases, are a run of the lease's own system (`leases_run`), and what is known of it carries over.
A capture redirects its streams or leaves them as they are, and restores what it saved or aborts
the process; its readers return a beginning of what is in the pipe.

No run's output gets into another's capture (`captured_output_separate`).
-/

namespace Libdeno.Runs.Captured

open Executor (CapturedOutput CapturedRunError)
open Supervisor (LibdenoError RunOutput)
open Transition (Run)

/-! ### The calls -/

/-- A standard stream. -/
inductive StdStream
  | stdout
  | stderr
  deriving Repr, DecidableEq

/-- Where it leads: to the host's file, or into the pipe of a run's capture. -/
inductive Sink
  | host
  | capture (run : Nat)
  deriving Repr, DecidableEq

/-- The options the entry points look at. -/
structure Options where
  captureStdout : Bool
  captureStderr : Bool
  prompt : Bool
  deriving Repr, DecidableEq

def Options.captures (self : Options) : StdStream → Bool
  | .stdout => self.captureStdout
  | .stderr => self.captureStderr

/-- `options.capture_stdout || options.capture_stderr`. -/
def Options.captured (self : Options) : Bool := self.captureStdout || self.captureStderr

/-- Which entry point is called, an async one on a thread of the host. -/
inductive Entry
  | sync
  | async (thread : Nat)
  | exitCode
  deriving Repr, DecidableEq

/-- What was written: by a run, which wanted the stream captured or not, or by one of its
workers. -/
structure Write where
  run : Nat
  wanted : Option Bool
  stream : StdStream
  sink : Sink
  bytes : List UInt8

/-- What the calls share. -/
structure Memory where
  lease : Runs.Memory
  sinks : StdStream → Sink
  /-- `RUN_ASYNC_IN_PROGRESS`, of each thread. -/
  runAsyncInProgress : Nat → Bool
  /-- History. -/
  written : List Write
  aborted : Bool

def Memory.initial : Memory where
  lease := .initial
  sinks := fun _ => .host
  runAsyncInProgress := fun _ => false
  written := []
  aborted := false

/-- What went into the pipe of a capture. -/
def Memory.piped (m : Memory) (run : Nat) (stream : StdStream) : List UInt8 :=
  (m.written.filter fun w => w.sink = .capture run ∧ w.stream = stream).flatMap (·.bytes)

/-- What a call returns, unless it unwinds or its future is dropped. -/
abbrev Answer := Option (Except CapturedRunError RunOutput)

/-- `CapturedRunError::new`. -/
def failed (error : LibdenoError) : Answer := some (.error { error, output := none })

/-- `combine_capture`. -/
def combineCapture (result : Except LibdenoError Int32)
    (captureResult : Except IoError (List UInt8 × List UInt8 × Bool)) :
    Except CapturedRunError RunOutput :=
  match result, captureResult with
  | .ok exitCode, .ok (stdout, stderr, truncated) =>
      .ok { exitCode, stdout, stderr, captureTruncated := truncated }
  | .ok _, .error error => .error { error := .io error, output := none }
  | .error error, .ok (stdout, stderr, truncated) =>
      if !stdout.isEmpty || !stderr.isEmpty || truncated then
        .error { error, output := some { stdout, stderr, truncated } }
      else .error { error, output := none }
  | .error error, .error _ => .error { error, output := none }

/-- Where a call stands. -/
inductive Stage
  | enter
  | leasing
  | leased
  /-- The capture is in place, with what it saved. -/
  | running (saved : StdStream → Sink)
  /-- The streams are restored. -/
  | collecting (result : Except LibdenoError Int32)
  | settled (answer : Answer)
  | unleased (answer : Answer)
  | left (answer : Answer)

/-- A call, and where it stands with its lease. The lease's number is history. -/
structure Call where
  entry : Entry
  options : Options
  stage : Stage
  pc : Pc
  run : Option Nat

/-- A call, or a worker or an installer of a broker. -/
inductive Thread
  | call (call : Call)
  | other (pc : Pc)

def Thread.pc : Thread → Pc
  | .call c => c.pc
  | .other pc => pc

def runAsyncInProgressError : LibdenoError := .configuration
  ("a run_async is already in progress on this thread; run_async futures must not be " ++
    "interleaved — await them one at a time, or use run() for parallel runs")

/-- `reject_capture_flags`. -/
def captureFlagsRejected : LibdenoError := .configuration
  ("run_with does not support output capture (it returns only the exit code); use " ++
    "run_with_output for capture on the reusable stack")

/-- `join_worker`, where the thread has panicked. -/
def workerPanicked : LibdenoError := .runtime "libdeno worker thread panicked" false

/-- The stage behind a step of `RunLease::acquire`. -/
def afterLease : Pc → Stage
  | .active _ => .leased
  | .failed error => .unleased (failed error)
  | _ => .leasing

/-- `restore` of a capture, and its drop. -/
def restored (options : Options) (saved sinks : StdStream → Sink) : StdStream → Sink :=
  fun stream => if options.captures stream then saved stream else sinks stream

/-- What the readers of a capture may return. -/
def Drains (m : Memory) (c : Call) (run : Nat) :
    Except IoError (List UInt8 × List UInt8 × Bool) → Prop
  | .ok (stdout, stderr, _) =>
      stdout <+: (if c.options.captureStdout then m.piped run .stdout else []) ∧
        stderr <+: (if c.options.captureStderr then m.piped run .stderr else [])
  | .error _ => True

/-- One step of a thread. -/
inductive ThreadStep (m : Memory) : Thread → Memory → Thread → List Thread → Prop
  | enter {c : Call} : c.stage = .enter → c.entry = .sync →
      ThreadStep m (.call c) m (.call { c with stage := .leasing }) []
  /-- No tokio context, or a cwd that is not the runtime's. -/
  | refused {c : Call} (message : String) : c.stage = .enter →
      ThreadStep m (.call c) m (.call { c with stage := .left (failed (.configuration message)) })
        []
  | exitCode {c : Call} : c.stage = .enter → c.entry = .exitCode → c.options.captured = false →
      ThreadStep m (.call c) m (.call { c with stage := .leasing }) []
  | flagsRejected {c : Call} : c.stage = .enter → c.entry = .exitCode →
      c.options.captured = true →
      ThreadStep m (.call c) m (.call { c with stage := .left (failed captureFlagsRejected) }) []
  | guard {c : Call} {thread : Nat} : c.stage = .enter → c.entry = .async thread →
      m.runAsyncInProgress thread = false →
      ThreadStep m (.call c)
        { m with runAsyncInProgress := Function.update m.runAsyncInProgress thread true }
        (.call { c with stage := .leasing }) []
  | guardRefused {c : Call} {thread : Nat} : c.stage = .enter → c.entry = .async thread →
      m.runAsyncInProgress thread = true →
      ThreadStep m (.call c) m (.call { c with stage := .left (failed runAsyncInProgressError) })
        []
  | acquires {c : Call} {lease : Runs.Memory} {pc : Pc} : c.stage = .leasing →
      Runs.ThreadStep m.lease c.pc lease pc [] →
      ThreadStep m (.call c) { m with lease }
        (.call { c with stage := afterLease pc, pc, run := pc.lease?.map (·.2) }) []
  | promptRefused {c : Call} {error : LibdenoError} : c.stage = .leased →
      Subprocess.Host.validatePromptCapture c.options.prompt c.options.captureStderr =
        .error error →
      ThreadStep m (.call c) m (.call { c with stage := .settled (failed error) }) []
  /-- The capture, or the thread of the run, does not come about. -/
  | noCapture {c : Call} (error : IoError) : c.stage = .leased →
      ThreadStep m (.call c) m (.call { c with stage := .settled (failed (.io error)) }) []
  | capture {c : Call} {lease : RunLease} {run : Nat} : c.stage = .leased →
      Subprocess.Host.validatePromptCapture c.options.prompt c.options.captureStderr = .ok () →
      c.pc = .active (.run lease run) →
      ThreadStep m (.call c)
        { m with sinks := fun stream =>
            if c.options.captures stream then .capture run else m.sinks stream }
        (.call { c with stage := .running m.sinks }) []
  /-- The run reserves workers, or closes their registry. -/
  | acts {c : Call} {saved : StdStream → Sink} {lease : Runs.Memory} {pc : Pc}
      {spawned : List Pc} : c.stage = .running saved →
      Runs.ThreadStep m.lease c.pc lease pc spawned → pc ≠ .done →
      ThreadStep m (.call c) { m with lease } (.call { c with pc }) (spawned.map .other)
  | writes {c : Call} {saved : StdStream → Sink} {lease : RunLease} {run : Nat}
      (stream : StdStream) (bytes : List UInt8) : c.stage = .running saved →
      c.pc = .active (.run lease run) →
      ThreadStep m (.call c)
        { m with written := m.written ++ [{
            run, wanted := some (c.options.captures stream), stream,
            sink := m.sinks stream, bytes }] }
        (.call c) []
  | ends {c : Call} {saved : StdStream → Sink} {actor : Actor}
      (result : Except LibdenoError Int32) : c.stage = .running saved → c.pc = .active actor →
      ThreadStep m (.call c) { m with sinks := restored c.options saved m.sinks }
        (.call { c with stage := .collecting result }) []
  /-- It panics, or its future is dropped. -/
  | unwinds {c : Call} {saved : StdStream → Sink} {actor : Actor} (answer : Answer) :
      c.stage = .running saved → c.pc = .active actor →
      answer = none ∨ answer = failed workerPanicked →
      ThreadStep m (.call c) { m with sinks := restored c.options saved m.sinks }
        (.call { c with stage := .settled answer }) []
  /-- `abort_restore`. -/
  | aborts {c : Call} {saved : StdStream → Sink} : c.stage = .running saved →
      ThreadStep m (.call c) { m with aborted := true } (.call c) []
  | collects {c : Call} {result : Except LibdenoError Int32} {lease : RunLease} {run : Nat}
      {drained : Except IoError (List UInt8 × List UInt8 × Bool)} :
      c.stage = .collecting result → c.pc = .active (.run lease run) → Drains m c run drained →
      ThreadStep m (.call c) m
        (.call { c with stage := .settled (some (combineCapture result drained)) }) []
  | abandons {c : Call} {result : Except LibdenoError Int32} : c.stage = .collecting result →
      ThreadStep m (.call c) m (.call { c with stage := .settled none }) []
  /-- The lease is dropped. -/
  | releases {c : Call} {answer : Answer} {lease : Runs.Memory} : c.stage = .settled answer →
      Runs.ThreadStep m.lease c.pc lease .done [] →
      ThreadStep m (.call c) { m with lease }
        (.call { c with stage := .unleased answer, pc := .done }) []
  /-- So is the guard of an async run. -/
  | leaves {c : Call} {answer : Answer} : c.stage = .unleased answer →
      ThreadStep m (.call c)
        { m with
          runAsyncInProgress :=
            match c.entry with
            | .async thread => Function.update m.runAsyncInProgress thread false
            | _ => m.runAsyncInProgress }
        (.call { c with stage := .left answer }) []
  | other {pc pc' : Pc} {lease : Runs.Memory} {spawned : List Pc} :
      Runs.ThreadStep m.lease pc lease pc' spawned →
      ThreadStep m (.other pc) { m with lease } (.other pc') (spawned.map .other)
  | workerWrites {run : Nat} {workerId : UInt32} {registrationId : UInt64}
      (stream : StdStream) (bytes : List UInt8) :
      (Actor.worker run workerId registrationId).live m.lease = true →
      ThreadStep m (.other (.active (.worker run workerId registrationId)))
        { m with written := m.written ++ [{
            run, wanted := none, stream, sink := m.sinks stream, bytes }] }
        (.other (.active (.worker run workerId registrationId))) []

/-- Calls arrive. `run_with_exit_code` acquires an ordinary lease, as it has refused the flags
of a capture by then. -/
inductive CallStep (m : Memory) : Memory → List Thread → Prop
  | call (entry : Entry) (options : Options) :
      CallStep m m
        [.call { entry, options, stage := .enter, pc := acquire options.captured, run := none }]
  | installBroker : CallStep m m [.other acquireBrokerInstall]

abbrev System := Pool Memory Thread

def System.initial : System := ⟨.initial, []⟩

/-- The calls through their leases. -/
def System.leases (s : System) : Runs.System := s.map Memory.lease Thread.pc

/-- One step, while the process is there. -/
def SystemStep (s s' : System) : Prop :=
  s.memory.aborted = false ∧ Pool.Step ThreadStep CallStep s s' ∧ Bounded s'.leases

/-! ### The leases -/

variable {m m' : Memory} {t t' : Thread} {spawned : List Thread} {s s' : System}

theorem map_other (pcs : List Pc) : (pcs.map Thread.other).map Thread.pc = pcs := by
  simp [Function.comp_def, Thread.pc]

theorem looks : Pool.Looks ThreadStep CallStep Runs.ThreadStep Runs.CallStep
    Memory.lease Thread.pc where
  own m t m' t' spawned step := by
    cases step with
    | acquires hstage move => exact .inl move
    | acts hstage move hdone =>
        rw [map_other]
        exact .inl move
    | releases hstage move => exact .inl move
    | other move =>
        rw [map_other]
        exact .inl move
    | _ => exact .inr ⟨rfl, rfl, rfl⟩
  env m m' spawned step := by
    cases step with
    | call entry options => exact .acquire options.captured
    | installBroker => exact .acquireBrokerInstall

/-- The calls are a run of the lease's system. -/
theorem leases_run (run : Run SystemStep .initial s) : Run LeaseStep .initial s.leases := by
  refine run.invariant (P := fun s : System => Run LeaseStep .initial s.leases)
    (fun s s' hs step => ?_) .refl
  rcases looks.step step.2.1 with hstep | hsame
  · exact hs.tail ⟨hstep, step.2.2⟩
  · show Run LeaseStep .initial (s'.map Memory.lease Thread.pc)
    rw [hsame]
    exact hs

/-! ### What a call holds -/

/-- The marker of its lease. -/
def Options.marker (self : Options) : Option Marker :=
  if self.captured then some .capture else none

/-- It is on the way to a lease. -/
def Acquires (marker : Option Marker) : Pc → Prop
  | .load | .exchange _ => marker = none
  | .exclusive own | .claim own | .recheck own | .rollback own => marker = some own
  | _ => False

/-- It has the lease of this number. -/
def Holds (marker : Option Marker) (pc : Pc) (number : Option Nat) (run : Nat) : Prop :=
  pc.lease? = some (⟨marker⟩, run) ∧ number = some run

/-- Where a call stands with its lease. -/
def Stage.Ok (marker : Option Marker) (pc : Pc) (number : Option Nat) : Stage → Prop
  | .enter | .leasing => Acquires marker pc
  | .leased | .running _ | .collecting _ | .settled _ => ∃ run, Holds marker pc number run
  | .unleased _ | .left _ => True

def Call.Ok (c : Call) : Prop := c.stage.Ok c.options.marker c.pc c.run

def Thread.Ok : Thread → Prop
  | .call c => c.Ok
  | .other _ => True

theorem acquire_ok (options : Options) : Acquires options.marker (acquire options.captured) := by
  unfold Options.marker acquire
  split <;> rfl

/-- Where a step of `RunLease::acquire` leads to. -/
theorem Acquires.step {marker : Option Marker} {m m' : Runs.Memory} {pc pc' : Pc}
    {spawned : List Pc} (inv : Acquires marker pc) (step : Runs.ThreadStep m pc m' pc' spawned) :
    (afterLease pc' = .leasing ∧ Acquires marker pc') ∨
      (∃ run, pc' = .active (.run ⟨marker⟩ run)) ∨ ∃ error, pc' = .failed error := by
  cases step with
  | captureRuns h => exact .inr (.inr ⟨_, rfl⟩)
  | installRuns h => exact .inr (.inr ⟨_, rfl⟩)
  | load h => exact .inl ⟨rfl, inv⟩
  | exchanged h =>
      obtain rfl : marker = none := inv
      exact .inr (.inl ⟨_, rfl⟩)
  | retry h => exact .inl ⟨rfl, inv⟩
  | workersLive h => exact .inr (.inr ⟨_, rfl⟩)
  | noWorkers h => exact .inl ⟨rfl, inv⟩
  | refused h => exact .inr (.inr ⟨_, rfl⟩)
  | claimed h => exact .inl ⟨rfl, inv⟩
  | workersAppeared h => exact .inl ⟨rfl, inv⟩
  | granted h =>
      obtain rfl : marker = _ := inv
      exact .inr (.inl ⟨_, rfl⟩)
  | rollback => exact .inr (.inr ⟨_, rfl⟩)
  | _ => exact inv.elim

/-- A lease is held until its thread is done. -/
theorem lease_kept {m m' : Runs.Memory} {pc pc' : Pc} {spawned : List Pc}
    (step : Runs.ThreadStep m pc m' pc' spawned) {lease : RunLease × Nat}
    (h : pc.lease? = some lease) (hdone : pc' ≠ .done) : pc'.lease? = some lease := by
  cases step with
  | drop => exact absurd rfl hdone
  | close => exact h
  | register workerId => exact h
  | reserve hlive hreserve => exact h
  | reserveRefused hreserve => exact h
  | _ => cases h

theorem others_ok (pcs : List Pc) : ∀ u ∈ pcs.map Thread.other, u.Ok := by
  intro u hu
  obtain ⟨pc, -, rfl⟩ := List.mem_map.mp hu
  trivial

theorem Call.Ok.stands {c : Call} (inv : c.Ok) {stage : Stage} (hstage : c.stage = stage) :
    stage.Ok c.options.marker c.pc c.run := by
  subst hstage
  exact inv

/-- A call moves on with the lease it has. -/
theorem Call.Ok.move {c : Call} (inv : c.Ok) {stage stage' : Stage} (hstage : c.stage = stage)
    (same : ∀ {marker pc number}, stage.Ok marker pc number → stage'.Ok marker pc number) :
    { c with stage := stage' }.Ok := same (inv.stands hstage)

theorem ThreadStep.ok (step : ThreadStep m t m' t' spawned) (inv : t.Ok) :
    t'.Ok ∧ ∀ u ∈ spawned, u.Ok := by
  have hnone : ∀ u ∈ ([] : List Thread), u.Ok := List.forall_mem_nil _
  cases step with
  | enter hstage | exitCode hstage | guard hstage | promptRefused hstage
  | noCapture error hstage | capture hstage | ends result hstage | unwinds answer hstage
  | collects hstage | abandons hstage => exact ⟨Call.Ok.move inv hstage id, hnone⟩
  | @acquires c lease pc hstage move =>
      refine ⟨?_, hnone⟩
      rcases Acquires.step (Call.Ok.stands inv hstage) move with
        ⟨hstage', hnext⟩ | ⟨run, rfl⟩ | ⟨error, rfl⟩
      · show Stage.Ok _ _ _ (afterLease pc)
        rw [hstage']
        exact hnext
      · exact ⟨run, rfl, rfl⟩
      · exact trivial
  | @acts c saved lease pc spawned hstage move hdone =>
      refine ⟨?_, others_ok spawned⟩
      obtain ⟨run, hlease, hrun⟩ := Call.Ok.stands inv hstage
      show Stage.Ok _ _ _ c.stage
      rw [hstage]
      exact ⟨run, lease_kept move hlease hdone, hrun⟩
  | other move => exact ⟨trivial, others_ok _⟩
  | writes stream bytes hstage | aborts hstage => exact ⟨inv, hnone⟩
  | _ => exact ⟨trivial, hnone⟩

/-- A lease is a part in the word, an exclusive one where a stream is captured. -/
theorem Holds.part {marker : Option Marker} {pc : Pc} {number : Option Nat} {run : Nat}
    (h : Holds marker pc number run) : pc.part? = some (RunLease.part ⟨marker⟩) :=
  part?_of_lease h.1

theorem Holds.number {marker : Option Marker} {lease : RunLease} {run run' : Nat}
    {number : Option Nat} (h : Holds marker (.active (.run lease run)) number run') :
    number = some run := by
  obtain ⟨hlease, hnumber⟩ := h
  cases hlease
  exact hnumber

theorem captured_of_captures {options : Options} {stream : StdStream}
    (h : options.captures stream = true) : options.captured = true := by
  cases stream <;> simp_all [Options.captures, Options.captured]

/-- A call that captures has an exclusive lease. -/
theorem Holds.exclusive {options : Options} {pc : Pc} {number : Option Nat} {run : Nat}
    (h : Holds options.marker pc number run) (captured : options.captured = true) :
    pc.part? = some (.exclusive .capture) := by
  rw [h.part, Options.marker, if_pos captured]
  rfl

/-- The sinks change only in the hands of an exclusive lease. -/
theorem ThreadStep.sinks (step : ThreadStep m t m' t' spawned) (ok : t.Ok) :
    m'.sinks = m.sinks ∨ t.pc.part? = some (.exclusive .capture) := by
  have hnone {options : Options} (h : ¬ options.captured = true) (stream : StdStream) :
      options.captures stream = false :=
    Bool.eq_false_iff.mpr fun hcaptures => h (captured_of_captures hcaptures)
  have hrestored {options : Options} (h : ¬ options.captured = true)
      (saved : StdStream → Sink) : restored options saved m.sinks = m.sinks :=
    funext fun stream => by simp [restored, hnone h]
  cases step with
  | @capture c lease run hstage hprompt hpc =>
      by_cases hcaptured : c.options.captured = true
      · obtain ⟨_, hholds⟩ := Call.Ok.stands ok hstage
        exact .inr (hholds.exclusive hcaptured)
      · exact .inl (funext fun stream => by simp [hnone hcaptured])
  | @ends c saved actor result hstage hpc =>
      by_cases hcaptured : c.options.captured = true
      · obtain ⟨_, hholds⟩ := Call.Ok.stands ok hstage
        exact .inr (hholds.exclusive hcaptured)
      · exact .inl (hrestored hcaptured saved)
  | @unwinds c saved actor answer hstage hpc hanswer =>
      by_cases hcaptured : c.options.captured = true
      · obtain ⟨_, hholds⟩ := Call.Ok.stands ok hstage
        exact .inr (hholds.exclusive hcaptured)
      · exact .inl (hrestored hcaptured saved)
  | _ => exact .inl rfl

/-! ### One capture at a time -/

section Alone

variable {before after : List Thread}

theorem leases_middle : System.leases ⟨m, before ++ t :: after⟩ =
    ⟨m.lease, before.map Thread.pc ++ t.pc :: after.map Thread.pc⟩ := by
  simp [System.leases, Pool.map]

/-- Beside an exclusive lease nobody has one. -/
theorem none_beside (inv : Consistent (System.leases ⟨m, before ++ t :: after⟩)) {marker : Marker}
    (h : t.pc.part? = some (.exclusive marker)) : ∀ u ∈ before ++ after, u.pc.part? = none := by
  intro u hu
  have hword := inv.word
  rw [leases_middle] at hword
  refine no_other_part hword h u.pc ?_
  rw [← List.map_append]
  exact List.mem_map_of_mem hu

theorem none_within (inv : Consistent (System.leases ⟨m, before ++ t :: after⟩)) {marker : Marker}
    {u : Thread} (hu : u ∈ before ++ after) (h : u.pc.part? = some (.exclusive marker)) :
    t.pc.part? = none := by
  have hword := inv.word
  rw [leases_middle, Pool.tally_split] at hword
  refine @Word.alone _ _ _ marker hword (census_pos ?_ h)
  rw [← List.map_append]
  exact List.mem_map_of_mem hu

end Alone

/-! ### Where the streams lead -/

/-- It runs, and has the capture of this stream. -/
def Thread.Captures (stream : StdStream) (run : Nat) : Thread → Prop
  | .call c => (∃ saved, c.stage = .running saved) ∧ c.run = some run ∧
      c.options.captures stream = true
  | .other _ => False

/-- Its streams lead to its capture, and led to the host's files before. -/
def Thread.Directed (m : Memory) : Thread → Prop
  | .call c => ∀ saved run, c.stage = .running saved → c.run = some run → ∀ stream,
      c.options.captures stream = true → m.sinks stream = .capture run ∧ saved stream = .host
  | .other _ => True

/-- Whose capture a stream leads to. -/
def Covered (s : System) : Prop :=
  ∀ leads : StdStream × Nat, s.memory.sinks leads.1 = .capture leads.2 →
    ∃ t ∈ s.threads, t.Captures leads.1 leads.2

theorem Thread.Captures.exclusive {stream : StdStream} {run : Nat} (h : t.Captures stream run)
    (ok : t.Ok) : t.pc.part? = some (.exclusive .capture) := by
  cases t with
  | call c =>
      obtain ⟨⟨saved, hstage⟩, -, hcaptures⟩ := h
      obtain ⟨_, hholds⟩ := Call.Ok.stands ok hstage
      exact hholds.exclusive (captured_of_captures hcaptures)
  | other pc => exact h.elim

/-- A stream that leads to a capture behind a step did so before, or does so by the step; and
who restores a stream has it. -/
theorem ThreadStep.covered (step : ThreadStep m t m' t' spawned) (ok : t.Ok)
    (directed : t.Directed m) {stream : StdStream} {run : Nat}
    (h : m'.sinks stream = .capture run) :
    t'.Captures stream run ∨ (m.sinks stream = .capture run ∧ ¬ t.Captures stream run) := by
  have still {c : Call} {stage : Stage} (hstage : c.stage = stage)
      (hnot : ∀ saved, stage ≠ .running saved) : ¬ (Thread.call c).Captures stream run := by
    rintro ⟨⟨saved, hrunning⟩, -, -⟩
    exact hnot saved (hstage.symm.trans hrunning)
  have runs {c c' : Call} {saved : StdStream → Sink} (hstage : c.stage = .running saved)
      (hstage' : c'.stage = .running saved) (hrun : c'.run = c.run)
      (hoptions : c'.options = c.options) (hsinks : m.sinks stream = .capture run) :
      (Thread.call c').Captures stream run ∨
        (m.sinks stream = .capture run ∧ ¬ (Thread.call c).Captures stream run) := by
    by_cases hc : (Thread.call c).Captures stream run
    · obtain ⟨-, hnumber, hcaptures⟩ := hc
      exact .inl ⟨⟨saved, hstage'⟩, hrun.trans hnumber, hoptions ▸ hcaptures⟩
    · exact .inr ⟨hsinks, hc⟩
  have restores {c : Call} {saved : StdStream → Sink} (hstage : c.stage = .running saved)
      (hdirected : (Thread.call c).Directed m) (hok : (Thread.call c).Ok)
      (hsinks : restored c.options saved m.sinks stream = .capture run) :
      m.sinks stream = .capture run ∧ ¬ (Thread.call c).Captures stream run := by
    obtain ⟨number, -, hnumber⟩ := Call.Ok.stands hok hstage
    cases hcaptures : c.options.captures stream with
    | true =>
        rw [restored, hcaptures, if_pos rfl,
          (hdirected saved number hstage hnumber stream hcaptures).2] at hsinks
        cases hsinks
    | false =>
        rw [restored, hcaptures] at hsinks
        refine ⟨hsinks, ?_⟩
        rintro ⟨-, -, htrue⟩
        rw [hcaptures] at htrue
        cases htrue
  cases step with
  | @capture c lease number hstage hprompt hpc =>
      change (if c.options.captures stream then _ else _) = _ at h
      by_cases hcaptures : c.options.captures stream = true
      · rw [if_pos hcaptures] at h
        cases h
        obtain ⟨_, hholds⟩ := Call.Ok.stands ok hstage
        rw [hpc] at hholds
        exact .inl ⟨⟨_, rfl⟩, hholds.number, hcaptures⟩
      · rw [if_neg hcaptures] at h
        exact .inr ⟨h, still hstage nofun⟩
  | acts hstage | writes _ bytes hstage | aborts hstage => exact runs hstage hstage rfl rfl h
  | ends result hstage | unwinds answer hstage => exact .inr (restores hstage directed ok h)
  | enter hstage | refused message hstage | exitCode hstage | flagsRejected hstage
  | guard hstage | guardRefused hstage | acquires hstage | promptRefused hstage
  | noCapture error hstage | collects hstage | abandons hstage | releases hstage
  | leaves hstage => exact .inr ⟨h, still hstage nofun⟩
  | other move | workerWrites _ bytes hlive => exact .inr ⟨h, id⟩

theorem afterLease_not_running (pc : Pc) (saved : StdStream → Sink) :
    afterLease pc ≠ .running saved := by
  cases pc <;> nofun

/-- Where it runs, its capture stays as it was made; `owner` says that a stream leads to its
capture or it has no lease. -/
theorem ThreadStep.directed (step : ThreadStep m t m' t' spawned) (ok : t.Ok)
    (owner : ∀ stream run, m.sinks stream = .capture run →
      t.Captures stream run ∨ t.pc.part? = none)
    (inv : t.Directed m) : t'.Directed m' := by
  cases step with
  | @capture c lease number hstage hprompt hpc =>
      intro saved run hsaved hrun stream hcaptures
      obtain ⟨_, hholds⟩ := Call.Ok.stands ok hstage
      have hexclusive := hholds.exclusive (captured_of_captures hcaptures)
      rw [hpc] at hholds
      obtain rfl : number = run := Option.some.inj (hholds.number.symm.trans hrun)
      obtain rfl : m.sinks = saved := by
        cases hsaved
        rfl
      refine ⟨if_pos hcaptures, ?_⟩
      cases hsinks : m.sinks stream with
      | host => rfl
      | capture other =>
          rcases owner stream other hsinks with ⟨⟨_, hrunning⟩, -, -⟩ | hnone
          · rw [hstage] at hrunning
            cases hrunning
          · rw [Thread.pc, hexclusive] at hnone
            cases hnone
  | acts hstage move hdone => exact inv
  | writes stream bytes hstage => exact inv
  | aborts hstage => exact inv
  | @acquires c lease pc hstage move =>
      exact fun saved run hrunning => absurd hrunning (afterLease_not_running pc saved)
  | enter hstage | refused message hstage | exitCode hstage | flagsRejected hstage
  | guard hstage | guardRefused hstage | promptRefused hstage | noCapture error hstage
  | ends result hstage | unwinds answer hstage | collects hstage | abandons hstage
  | releases hstage | leaves hstage => exact fun saved run hrunning => nomatch hrunning
  | other move => trivial
  | workerWrites stream bytes hlive => trivial

/-- What is known of the calls before a step. -/
structure Known (s : System) : Prop where
  leases : Consistent s.leases
  ok : ∀ t ∈ s.threads, t.Ok
  directed : ∀ t ∈ s.threads, t.Directed s.memory
  covered : Covered s

section Owner

variable {before after : List Thread} {stream : StdStream} {run : Nat}

/-- Who has a lease beside a capture has the capture. -/
theorem Known.owner (known : Known ⟨m, before ++ t :: after⟩)
    (h : m.sinks stream = .capture run) : t.Captures stream run ∨ t.pc.part? = none := by
  obtain ⟨u, hu, hcaptures⟩ := known.covered (stream, run) h
  have hexclusive := hcaptures.exclusive (known.ok u hu)
  rcases List.mem_append.mp hu with hbefore | hother
  · exact .inr (none_within known.leases (List.mem_append_left _ hbefore) hexclusive)
  · rcases List.mem_cons.mp hother with rfl | hafter
    · exact .inl hcaptures
    · exact .inr (none_within known.leases (List.mem_append_right _ hafter) hexclusive)

/-- A worker beside a capture is one of its run. -/
theorem Known.worker {s : System} (known : Known s)
    (h : s.memory.sinks stream = .capture run) {number : Nat} {workerId : UInt32}
    {registrationId : UInt64}
    (live : (Actor.worker number workerId registrationId).live s.memory.lease = true) :
    number = run := by
  obtain ⟨u, hu, hcaptures⟩ := known.covered (stream, run) h
  cases u with
  | other pc => exact hcaptures.elim
  | call c =>
      obtain ⟨⟨saved, hstage⟩, hrun, hstream⟩ := hcaptures
      obtain ⟨run', hlease, hrun'⟩ := Call.Ok.stands (known.ok _ hu) hstage
      obtain rfl : run' = run := Option.some.inj (hrun'.symm.trans hrun)
      have hmarker : c.options.marker ≠ none := by
        rw [Options.marker, if_pos (captured_of_captures hstream)]
        nofun
      have halone := known.leases.alone c.pc (List.mem_map_of_mem (f := Thread.pc) hu)
        _ run' hlease hmarker
      have hpos := RegistryState.len_pos_of_registered live
      by_contra hne
      have hzero : (s.memory.lease.registries number).len = 0 := halone number hne
      omega

/-- The steps of others leave a call's capture alone. -/
theorem Known.directed_stable (known : Known ⟨m, before ++ t :: after⟩) {u : Thread}
    (hu : u ∈ before ++ after) (step : ThreadStep m t m' t' spawned) (inv : u.Directed m) :
    u.Directed m' := by
  cases u with
  | other pc => trivial
  | call c =>
      intro saved run hstage hrun stream hcaptures
      rcases step.sinks (known.ok t (by simp)) with hsame | hexclusive
      · rw [hsame]
        exact inv saved run hstage hrun stream hcaptures
      · have hmem : Thread.call c ∈ before ++ t :: after := by
          simp only [List.mem_append, List.mem_cons] at hu ⊢
          tauto
        obtain ⟨_, hholds⟩ := Call.Ok.stands (known.ok _ hmem) hstage
        have hnone := none_beside known.leases hexclusive _ hu
        rw [Thread.pc, hholds.part] at hnone
        cases hnone

end Owner

theorem CallStep.arrives (step : CallStep m m' spawned) :
    m' = m ∧ ∀ u ∈ spawned, u.Ok ∧ u.Directed m := by
  cases step with
  | call entry options =>
      refine ⟨rfl, List.forall_mem_singleton.mpr ⟨acquire_ok options, ?_⟩⟩
      exact fun saved run hrunning => nomatch hrunning
  | installBroker => exact ⟨rfl, List.forall_mem_singleton.mpr ⟨trivial, trivial⟩⟩

theorem spawned_directed (step : ThreadStep m t m' t' spawned) :
    ∀ u ∈ spawned, u.Directed m' := by
  have hothers (pcs : List Pc) : ∀ u ∈ pcs.map Thread.other, u.Directed m' := by
    intro u hu
    obtain ⟨pc, -, rfl⟩ := List.mem_map.mp hu
    trivial
  cases step with
  | acts hstage move hdone => exact hothers _
  | other move => exact hothers _
  | _ => exact List.forall_mem_nil _

theorem Known.step (known : Known s) (step : Pool.Step ThreadStep CallStep s s')
    (leases : Consistent s'.leases) : Known s' where
  leases := leases
  ok := by
    refine Pool.Step.threads (K := fun _ => True) (P := fun _ t => t.Ok)
      (fun _ h inv => h.ok inv) (fun _ _ _ _ inv => inv)
      (fun _ h => ⟨fun _ _ inv => inv, fun u hu => (h.arrives.2 u hu).1⟩) step trivial known.ok
  directed := by
    refine Pool.Step.threads (K := Known) (P := fun m t => t.Directed m)
      (fun known h inv => ⟨h.directed (known.ok _ (by simp)) (fun _ _ => known.owner) inv,
        spawned_directed h⟩)
      (fun known hu h _ inv => known.directed_stable hu h inv)
      (fun _ h => ?_) step known known.directed
    obtain ⟨rfl, harrived⟩ := h.arrives
    exact ⟨fun _ _ inv => inv, fun u hu => (harrived u hu).2⟩
  covered := by
    refine Pool.Step.answered (K := Known)
      (A := fun (m : Memory) (leads : StdStream × Nat) => m.sinks leads.1 = .capture leads.2)
      (Q := fun leads t => t.Captures leads.1 leads.2)
      (fun known h hleads =>
        h.covered (known.ok _ (by simp)) (known.directed _ (by simp)) hleads)
      (fun h hleads => ?_) step known known.covered
    obtain ⟨rfl, -⟩ := h.arrives
    exact hleads

theorem known_initial : Known .initial where
  leases := Consistent.initial
  ok := List.forall_mem_nil _
  directed := List.forall_mem_nil _
  covered := nofun

/-- A state some run leads to. -/
abbrev Reachable (s : System) : Prop := Transition.Reachable (· = System.initial) SystemStep s

theorem Reachable.leases (h : Reachable s) : Consistent s.leases := by
  obtain ⟨_, rfl, run⟩ := h
  exact Runs.Run.consistent (leases_run run)

theorem Reachable.known (h : Reachable s) : Known s := by
  refine (Transition.Reachable.invariant
    (P := fun s => Known s ∧ Reachable s) (fun s hs => ?_) (fun s s' inv step => ?_) h).1
  · subst hs
    exact ⟨known_initial, .start rfl⟩
  · have hnext : Reachable s' := inv.2.snoc step
    exact ⟨inv.1.step step.2.1 hnext.leases, hnext⟩

/-! ### What was written -/

/-- It went to the host's file or into the capture of its own run, and into the capture where the
run wanted it there. -/
def Write.Proper (w : Write) : Prop :=
  (w.sink = .host ∨ w.sink = .capture w.run) ∧
    ∀ wanted, w.wanted = some wanted → w.sink = if wanted then .capture w.run else .host

theorem Known.written {before after : List Thread} (known : Known ⟨m, before ++ t :: after⟩)
    (step : ThreadStep m t m' t' spawned) (inv : ∀ w ∈ m.written, w.Proper) :
    ∀ w ∈ m'.written, w.Proper := by
  have hadd {w : Write} (hw : w.Proper) : ∀ x ∈ m.written ++ [w], x.Proper := by
    intro x hx
    rcases List.mem_append.mp hx with hold | hnew
    · exact inv x hold
    · rw [List.mem_singleton.mp hnew]
      exact hw
  cases step with
  | @writes c saved lease run stream bytes hstage hpc =>
      obtain ⟨_, hholds⟩ := Call.Ok.stands (known.ok (.call c) (by simp)) hstage
      have hpart := hholds.part
      rw [hpc] at hholds
      refine hadd ?_
      cases hcaptures : c.options.captures stream with
      | true =>
          have hdirected := known.directed (.call c) (by simp)
          have hsink := (hdirected saved run hstage hholds.number stream hcaptures).1
          exact ⟨.inr hsink, fun _ hwanted => by cases hwanted; exact hsink⟩
      | false =>
          have hsink : m.sinks stream = .host := by
            cases hsinks : m.sinks stream with
            | host => rfl
            | capture other =>
                rcases known.owner hsinks with ⟨-, -, htrue⟩ | hnone
                · rw [hcaptures] at htrue
                  cases htrue
                · rw [Thread.pc, hpart] at hnone
                  cases hnone
          exact ⟨.inl hsink, fun _ hwanted => by cases hwanted; exact hsink⟩
  | @workerWrites run workerId registrationId stream bytes hlive =>
      refine hadd ⟨?_, nofun⟩
      cases hsinks : m.sinks stream with
      | host => exact .inl rfl
      | capture other =>
          obtain rfl := known.worker hsinks hlive
          exact .inr rfl
  | _ => exact inv

/-- What was written stays. -/
theorem ThreadStep.grows (step : ThreadStep m t m' t' spawned) : m.written <+: m'.written := by
  cases step with
  | writes stream bytes hstage => exact List.prefix_append _ _
  | workerWrites stream bytes hlive => exact List.prefix_append _ _
  | _ => exact List.prefix_rfl

theorem piped_grows (h : m.written <+: m'.written) (run : Nat) (stream : StdStream) :
    m.piped run stream <+: m'.piped run stream := by
  obtain ⟨more, hmore⟩ := h
  unfold Memory.piped
  rw [← hmore, List.filter_append, List.flatMap_append]
  exact List.prefix_append _ _

/-! ### What is returned -/

def Stage.answer : Stage → Answer
  | .settled answer | .unleased answer | .left answer => answer
  | _ => none

/-- These are beginnings of what went into the call's own capture, and nothing where it has
none. -/
def Owns (m : Memory) (options : Options) (number : Option Nat) (stdout stderr : List UInt8) :
    Prop :=
  ∃ run, number = some run ∧
    stdout <+: (if options.captureStdout then m.piped run .stdout else []) ∧
    stderr <+: (if options.captureStderr then m.piped run .stderr else [])

/-- What an answer has of the streams. -/
def Tells (m : Memory) (options : Options) (number : Option Nat) : Answer → Prop
  | none => True
  | some (.ok output) => Owns m options number output.stdout output.stderr
  | some (.error error) => ∀ output, error.output = some output →
      Owns m options number output.stdout output.stderr

def Thread.Answered (m : Memory) : Thread → Prop
  | .call c => Tells m c.options c.run c.stage.answer
  | .other _ => True

theorem Owns.grow {options : Options} {number : Option Nat} {stdout stderr : List UInt8}
    (h : Owns m options number stdout stderr) (grows : m.written <+: m'.written) :
    Owns m' options number stdout stderr := by
  obtain ⟨run, hnumber, hstdout, hstderr⟩ := h
  refine ⟨run, hnumber, hstdout.trans ?_, hstderr.trans ?_⟩
  · split
    · exact piped_grows grows run .stdout
    · exact List.prefix_rfl
  · split
    · exact piped_grows grows run .stderr
    · exact List.prefix_rfl

theorem Tells.grow {options : Options} {number : Option Nat} {answer : Answer}
    (h : Tells m options number answer) (grows : m.written <+: m'.written) :
    Tells m' options number answer := by
  match answer with
  | none => trivial
  | some (.ok output) => exact Owns.grow h grows
  | some (.error error) => exact fun output houtput => (h output houtput).grow grows

theorem tells_failed (options : Options) (number : Option Nat) (error : LibdenoError) :
    Tells m options number (failed error) := nofun

/-- The bytes are those that were drained, whatever came of the run. -/
theorem tells_combined {c : Call} {run : Nat} (hrun : c.run = some run)
    (result : Except LibdenoError Int32)
    {drained : Except IoError (List UInt8 × List UInt8 × Bool)} (h : Drains m c run drained) :
    Tells m c.options c.run (some (combineCapture result drained)) := by
  match result, drained with
  | .ok exitCode, .ok (stdout, stderr, truncated) => exact ⟨run, hrun, h⟩
  | .ok exitCode, .error error => exact nofun
  | .error failure, .ok (stdout, stderr, truncated) =>
      unfold combineCapture
      dsimp only
      split
      · intro output houtput
        cases houtput
        exact ⟨run, hrun, h⟩
      · exact nofun
  | .error failure, .error error => exact nofun

theorem ThreadStep.answered (step : ThreadStep m t m' t' spawned) (ok : t.Ok)
    (inv : t.Answered m) : t'.Answered m' ∧ ∀ u ∈ spawned, u.Answered m' := by
  have hothers (pcs : List Pc) : ∀ u ∈ pcs.map Thread.other, u.Answered m' := by
    intro u hu
    obtain ⟨pc, -, rfl⟩ := List.mem_map.mp hu
    trivial
  have hnone : ∀ u ∈ ([] : List Thread), u.Answered m' := List.forall_mem_nil _
  have kept {c : Call} {stage : Stage} (hstage : c.stage = stage)
      (h : Tells m c.options c.run c.stage.answer) : Tells m c.options c.run stage.answer :=
    hstage ▸ h
  cases step with
  | @acquires c lease pc hstage move =>
      refine ⟨?_, hnone⟩
      cases pc with
      | failed error => exact tells_failed _ _ _
      | _ => trivial
  | refused message hstage => exact ⟨tells_failed _ _ _, hnone⟩
  | flagsRejected hstage => exact ⟨tells_failed _ _ _, hnone⟩
  | guardRefused hstage => exact ⟨tells_failed _ _ _, hnone⟩
  | promptRefused hstage => exact ⟨tells_failed _ _ _, hnone⟩
  | noCapture error hstage => exact ⟨tells_failed _ _ _, hnone⟩
  | unwinds answer hstage hpc hanswer =>
      refine ⟨?_, hnone⟩
      rcases hanswer with rfl | rfl
      · trivial
      · exact tells_failed _ _ _
  | @collects c result lease run drained hstage hpc hdrains =>
      obtain ⟨_, hholds⟩ := Call.Ok.stands ok hstage
      rw [hpc] at hholds
      exact ⟨tells_combined hholds.number result hdrains, hnone⟩
  | releases hstage =>
      have htells := kept hstage inv
      exact ⟨htells, hnone⟩
  | leaves hstage =>
      have htells := kept hstage inv
      exact ⟨htells, hnone⟩
  | @acts c saved lease pc spawned hstage move hdone => exact ⟨inv, hothers _⟩
  | @writes c saved lease run stream bytes hstage hpc =>
      exact ⟨Tells.grow inv (List.prefix_append _ _), hnone⟩
  | aborts hstage => exact ⟨inv, hnone⟩
  | other move => exact ⟨trivial, hothers _⟩
  | _ => exact ⟨trivial, hnone⟩

/-! ### The guard of async runs -/

/-- It is between its guard's two ends. -/
def Stage.inside : Stage → Bool
  | .enter | .left _ => false
  | _ => true

/-- The thread an async call is under way on. -/
def Thread.asyncOn : Thread → Option Nat
  | .call { entry := .async thread, stage, .. } => if stage.inside then some thread else none
  | _ => none

/-- The flags count the calls. -/
def Flagged (m : Memory) (calls : Nat → ℕ) : Prop :=
  ∀ thread, calls thread = (m.runAsyncInProgress thread).toNat

theorem asyncOn_call (c : Call) : (Thread.call c).asyncOn =
    match c.entry with
    | .async thread => if c.stage.inside then some thread else none
    | _ => none := by
  obtain ⟨entry, options, stage, pc, run⟩ := c
  cases entry <;> rfl

theorem asyncOn_stage {c c' : Call} (entry : c'.entry = c.entry)
    (inside : c'.stage.inside = c.stage.inside) :
    (Thread.call c').asyncOn = (Thread.call c).asyncOn := by
  rw [asyncOn_call, asyncOn_call, entry, inside]

theorem tally_others (pcs : List Pc) :
    Pool.tally (Pool.census Thread.asyncOn) (pcs.map Thread.other) = 0 := by
  induction pcs with
  | nil => rfl
  | cons pc pcs ih =>
      rw [List.map_cons, Pool.tally_cons, ih, add_zero]
      rfl

theorem afterLease_inside (pc : Pc) : (afterLease pc).inside = true := by
  cases pc <;> rfl

theorem ThreadStep.flagged {rest : Nat → ℕ} (step : ThreadStep m t m' t' spawned)
    (inv : Flagged m (Pool.census Thread.asyncOn t + rest)) :
    Flagged m' (Pool.census Thread.asyncOn t' +
      Pool.tally (Pool.census Thread.asyncOn) spawned + rest) := by
  have same {u u' : Thread} (hu : Flagged m (Pool.census Thread.asyncOn u + rest))
      (h : u'.asyncOn = u.asyncOn) : Flagged m (Pool.census Thread.asyncOn u' + 0 + rest) := by
    rw [add_zero]
    unfold Pool.census at hu ⊢
    rw [h]
    exact hu
  cases step with
  | enter hstage hentry | exitCode hstage hentry =>
      exact same inv (by simp [asyncOn_call, hentry])
  | refused message hstage | flagsRejected hstage | guardRefused hstage =>
      exact same inv (asyncOn_stage rfl (by rw [hstage]; rfl))
  | promptRefused hstage | noCapture error hstage | capture hstage | ends result hstage
  | unwinds answer hstage | collects hstage | abandons hstage | releases hstage =>
      exact same inv (asyncOn_stage rfl (by rw [hstage]; rfl))
  | acquires hstage move =>
      exact same inv (asyncOn_stage rfl (by rw [hstage, afterLease_inside]; rfl))
  | acts hstage move hdone =>
      rw [tally_others]
      exact same inv (asyncOn_stage rfl rfl)
  | writes stream bytes hstage | aborts hstage => exact same inv rfl
  | other move =>
      rw [tally_others]
      exact same inv rfl
  | workerWrites stream bytes hlive => exact same inv rfl
  | @guard c thread hstage hentry hfree =>
      intro other
      have hother := inv other
      simp only [Pool.census, asyncOn_call, hentry, hstage, Stage.inside, Pi.add_apply,
        Pool.tally_nil, Pi.zero_apply, Function.update_apply] at hother ⊢
      by_cases heq : other = thread
      · subst heq
        simp_all
      · have hne : thread ≠ other := fun h => heq h.symm
        simpa [heq, hne] using hother
  | @leaves c answer hstage =>
      intro other
      have hother := inv other
      simp only [Pool.census, asyncOn_call, hstage, Stage.inside, Pi.add_apply, Pool.tally_nil,
        Pi.zero_apply] at hother ⊢
      cases hentry : c.entry with
      | async thread =>
          simp only [hentry, Function.update_apply] at hother ⊢
          by_cases heq : other = thread
          · subst heq
            have hle := Bool.toNat_le (m.runAsyncInProgress other)
            simp at hother ⊢
            omega
          · have hne : thread ≠ other := fun h => heq h.symm
            simpa [heq, hne] using hother
      | sync => simpa [hentry] using hother
      | exitCode => simpa [hentry] using hother

/-! ### Runs of the system -/

theorem Reachable.written (h : Reachable s) : ∀ w ∈ s.memory.written, w.Proper := by
  refine Transition.Reachable.invariant_of (I := Known)
    (P := fun s : System => ∀ w ∈ s.memory.written, w.Proper)
    (fun _ h => Reachable.known h) (fun s hs => ?_) (fun s s' known inv step => ?_) h
  · subst hs
    exact nofun
  · cases step.2.1 with
    | thread before after move => exact known.written move inv
    | environment threads arrives =>
        obtain ⟨rfl, -⟩ := arrives.arrives
        exact inv

theorem Reachable.answered (h : Reachable s) : ∀ t ∈ s.threads, t.Answered s.memory := by
  refine Transition.Reachable.invariant_of (I := Known)
    (P := fun s : System => ∀ t ∈ s.threads, t.Answered s.memory)
    (fun _ h => Reachable.known h) (fun s hs => ?_) (fun s s' known inv step => ?_) h
  · subst hs
    exact List.forall_mem_nil _
  · refine Pool.Step.threads (K := Known) (P := fun m t => t.Answered m)
      (fun known h inv => h.answered (known.ok _ (by simp)) inv)
      (fun {_ _ _ _ _ _ _ u} _ _ h _ inv => ?_) (fun _ h => ?_) step.2.1 known inv
    · cases u with
      | call c => exact Tells.grow inv h.grows
      | other pc => trivial
    · cases h with
      | call entry options =>
          exact ⟨fun _ _ inv => inv, List.forall_mem_singleton.mpr trivial⟩
      | installBroker => exact ⟨fun _ _ inv => inv, List.forall_mem_singleton.mpr trivial⟩

theorem Reachable.flagged (h : Reachable s) :
    Flagged s.memory (Pool.tally (Pool.census Thread.asyncOn) s.threads) := by
  refine h.invariant
    (P := fun s : System => Flagged s.memory (Pool.tally (Pool.census Thread.asyncOn) s.threads))
    (fun s hs => ?_) fun s s' inv step => ?_
  · subst hs
    exact fun thread => rfl
  · refine Pool.Step.tally (I := Flagged) (fun rest move inv => move.flagged inv)
      (fun rest arrives inv => ?_) step.2.1 inv
    cases arrives with
    | call entry options =>
        intro thread
        have hnone (pc : Pc) :
            (Thread.call { entry, options, stage := .enter, pc, run := none }).asyncOn = none := by
          cases entry <;> rfl
        simpa [Pool.census, hnone] using inv thread
    | installBroker =>
        intro thread
        simpa [Pool.census, Thread.asyncOn] using inv thread

/-- **No run's output gets into another's capture.** However calls, runs and workers interleave:
what a run or one of its workers writes goes to the host's file or into the capture of that run,
and what the run wants captured goes into its capture. What a call returns is a beginning of what
went into its own capture. While a stream leads to a capture, its call runs and nobody else has a
lease; and a thread has one async call under way or none, as its flag says. -/
theorem captured_output_separate (h : Reachable s) :
    (∀ w ∈ s.memory.written, (w.sink = .host ∨ w.sink = .capture w.run) ∧
      ∀ wanted, w.wanted = some wanted → w.sink = if wanted then .capture w.run else .host) ∧
    (∀ c answer, .call c ∈ s.threads → c.stage = .left answer →
      Tells s.memory c.options c.run answer) ∧
    (∀ stream run, s.memory.sinks stream = .capture run →
      ∃ before c after, s.threads = before ++ .call c :: after ∧
        (Thread.call c).Captures stream run ∧ ∀ u ∈ before ++ after, u.pc.part? = none) ∧
    ∀ thread, s.threads.countP (·.asyncOn = some thread) =
      (s.memory.runAsyncInProgress thread).toNat := by
  refine ⟨h.written, fun c answer hc hstage => ?_, fun stream run hsinks => ?_, fun thread => ?_⟩
  · have htells : Tells s.memory c.options c.run c.stage.answer := h.answered _ hc
    rw [hstage] at htells
    exact htells
  · obtain ⟨t, ht, hcaptures⟩ := h.known.covered (stream, run) hsinks
    have hexclusive := hcaptures.exclusive (h.known.ok t ht)
    cases t with
    | other pc => exact hcaptures.elim
    | call c =>
        obtain ⟨before, after, hthreads⟩ := List.append_of_mem ht
        have hleases : Consistent (System.leases ⟨s.memory, before ++ .call c :: after⟩) := by
          rw [← hthreads]
          exact h.leases
        exact ⟨before, c, after, hthreads, hcaptures, none_beside hleases hexclusive⟩
  · rw [← Pool.tally_census]
    exact h.flagged thread

/-- A call that wants stdout. -/
def sampleCall : Call where
  entry := .async 0
  options := { captureStdout := true, captureStderr := false, prompt := false }
  stage := .running fun _ => .host
  pc := .active (.run ⟨some .capture⟩ 0)
  run := some 0

/-- What its run writes. -/
def sampleWrite : Write where
  run := 0
  wanted := some true
  stream := .stdout
  sink := .capture 0
  bytes := [104]

/-- Its run has written a byte. -/
def sample : System where
  memory := {
    lease := { Runs.Memory.initial with runState := Marker.capture.value, acquired := 1 }
    sinks := fun stream => if sampleCall.options.captures stream then .capture 0 else .host
    runAsyncInProgress := Function.update (fun _ => false) 0 true
    written := [sampleWrite]
    aborted := false }
  threads := [.call sampleCall]

theorem sample_reachable : Reachable sample := by
  have start : Reachable .initial := .start rfl
  have called := start.snoc
    ⟨rfl, .environment [] (.call (.async 0) sampleCall.options), by decide⟩
  have entered := called.snoc ⟨rfl, .thread [] [] (.guard rfl rfl rfl), by decide⟩
  have looked := entered.snoc ⟨rfl, .thread [] [] (.acquires rfl (.noWorkers rfl)), by decide⟩
  have claimed := looked.snoc ⟨rfl, .thread [] [] (.acquires rfl (.claimed rfl)), by decide⟩
  have leased := claimed.snoc ⟨rfl, .thread [] [] (.acquires rfl (.granted rfl)), by decide⟩
  have running := leased.snoc ⟨rfl, .thread [] [] (.capture rfl rfl rfl), by decide⟩
  exact running.snoc ⟨rfl, .thread [] [] (.writes .stdout [104] rfl rfl), by decide⟩

theorem captured_output_separate_sample :
    (sampleWrite.sink = .host ∨ sampleWrite.sink = .capture sampleWrite.run) ∧
    (∃ before c after, sample.threads = before ++ .call c :: after ∧
      (Thread.call c).Captures .stdout 0 ∧ ∀ u ∈ before ++ after, u.pc.part? = none) ∧
    sample.threads.countP (·.asyncOn = some 0) = 1 := by
  obtain ⟨hwritten, -, hcaptured, hasync⟩ := captured_output_separate sample_reachable
  exact ⟨(hwritten sampleWrite List.mem_cons_self).1, hcaptured .stdout 0 rfl, hasync 0⟩

end Libdeno.Runs.Captured
