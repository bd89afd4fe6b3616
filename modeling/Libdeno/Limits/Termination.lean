import Libdeno.Cancellation
import Libdeno.Io
import Libdeno.Library.Pool
import Libdeno.Library.Transition

/-!
# Libdeno.Limits.Termination

`run_with_termination`: a run under a deadline and a cancellation context, watched by a
thread of its own. Three parties race: the run (`register`, the wait, the done signal,
`clear`), its watchdog, and any number of calls of `request_with_reason` at any time. Each
access of a cell of the context is a step, and so is each pass of the watchdog over one of
its statements.

The argument is one predicate, `Covered`: the isolate has been told to terminate, or the
watchdog is going to, be it that it has fired or that it will find the flag on its first
look. A request that finds no isolate to terminate was stored before the isolate was
registered, and therefore before the watchdog existed.
-/

namespace Libdeno.Limits

open Transition

/-- `ExecutionTermination`. -/
inductive ExecutionTermination
  | deadline (duration : Nat)
  | cancelled
  | infrastructure (error : IoError)
  deriving DecidableEq

/-- `GRACE`, in milliseconds. -/
def grace : Nat := 2000

/-- The arguments of `run_with_termination` apart from the future; `lastInstant` is the last
point of time the clock can represent. -/
structure Config where
  deadline : Option Nat
  isolateHandle : Bool
  cancellation : Bool
  workerLifecycle : Bool
  lastInstant : Nat

/-! ### Where the parties stand -/

/-- Where `run_with_termination` stands. The future it drives answers in `α`; an ending is
its `result`, or its `termination`. -/
inductive RunPc (α : Type)
  | entry
  /-- `fut.await` without a deadline and a context. -/
  | unbounded
  | registerRead
  | registerReplace (shouldTerminate : Bool)
  | registerTerminate
  | spawn
  | spawnFailed (error : IoError)
  | waiting (since : Nat)
  | inGrace (since : Nat)
  | send (ending : Except ExecutionTermination α)
  | join (ending : Except ExecutionTermination α)
  | check (ending : Except ExecutionTermination α)
  | clear (requested : Bool) (ending : Except ExecutionTermination α)
  | conclude (requested : Bool) (ending : Except ExecutionTermination α)
  | returned (result : Except ExecutionTermination α)
  /-- The caller dropped the future. -/
  | dropped

/-- What made the watchdog fire. -/
inductive Firing
  | cancellation
  | deadline
  deriving DecidableEq

/-- Where the watchdog stands in its loop. -/
inductive WatchdogPc
  | head
  | receive
  | clock
  | fire (firing : Firing)
  | close
  | terminate
  | exited
  deriving DecidableEq

/-- Where a call of `request_with_reason` stands. -/
inductive RequestPc
  | insert (reason : CancelReason)
  | store
  | notify
  | readIsolate
  | terminate (found : Bool)
  | leave
  | returned
  deriving DecidableEq

/-- What the parties share, and where the run and the watchdog stand. `isolate` says that
the context's cell holds this run's handle.

The last four fields are history: that the isolate was told to terminate; that before the
done signal a request returned or the watchdog saw the deadline pass; that the watchdog was
joined; and what the run's last look at the context found. -/
structure Memory (α : Type) where
  context : CancellationContext
  isolate : Bool
  now : Nat
  deadlineAt : Option Nat
  cancellationFired : Bool
  deadlineFired : Bool
  workersClosed : Bool
  done : Bool
  run : RunPc α
  watchdog : Option WatchdogPc
  terminated : Bool
  timely : Bool
  joined : Bool
  checked : Option Bool

/-- The run, its watchdog and the requests. -/
abbrev System (α : Type) := Pool (Memory α) RequestPc

variable {α : Type}

/-! ### What they do -/

/-- A step of `request_with_reason`. -/
inductive RequestStep (m : Memory α) : RequestPc → Memory α → RequestPc → Prop
  | insert (reason : CancelReason) :
      RequestStep m (.insert reason) { m with context := m.context.insertReason reason } .store
  | store : RequestStep m .store { m with context := m.context.storeRequested } .notify
  | notify : RequestStep m .notify m .readIsolate
  | readIsolate : RequestStep m .readIsolate m (.terminate m.isolate)
  | terminate : RequestStep m (.terminate true) { m with terminated := true } .leave
  | nothing : RequestStep m (.terminate false) m .leave
  | leave : RequestStep m .leave { m with timely := m.timely || !m.done } .returned

/-- A step of the watchdog. `recv_timeout` may run into its timeout at any moment. -/
inductive WatchdogStep (config : Config) (m : Memory α) : Memory α → Prop
  | requested : m.watchdog = some .head → config.cancellation = true →
      m.context.isRequested = true →
      WatchdogStep config m { m with watchdog := some (.fire .cancellation) }
  | quiet : m.watchdog = some .head →
      ¬(config.cancellation = true ∧ m.context.isRequested = true) →
      WatchdogStep config m { m with watchdog := some .receive }
  /-- The done signal, or the channel disconnected with the future. -/
  | received : m.watchdog = some .receive → m.done = true ∨ m.run = .dropped →
      WatchdogStep config m { m with watchdog := some .exited }
  | timeout : m.watchdog = some .receive →
      WatchdogStep config m { m with watchdog := some .clock }
  | passed {deadlineAt : Nat} : m.watchdog = some .clock → m.deadlineAt = some deadlineAt →
      deadlineAt ≤ m.now →
      WatchdogStep config m { m with
        watchdog := some (.fire .deadline), timely := m.timely || !m.done }
  | ahead : m.watchdog = some .clock → ¬ m.deadlineAt.any (· ≤ m.now) →
      WatchdogStep config m { m with watchdog := some .head }
  | fireCancellation : m.watchdog = some (.fire .cancellation) →
      WatchdogStep config m { m with watchdog := some .close, cancellationFired := true }
  | fireDeadline : m.watchdog = some (.fire .deadline) →
      WatchdogStep config m { m with watchdog := some .close, deadlineFired := true }
  | close : m.watchdog = some .close →
      WatchdogStep config m { m with
        watchdog := some .terminate, workersClosed := m.workersClosed || config.workerLifecycle }
  | terminate : m.watchdog = some .terminate →
      WatchdogStep config m { m with
        watchdog := some .exited, terminated := m.terminated || config.isolateHandle }

/-- What is returned after the watchdog is joined and the context is cleared. -/
def conclude (config : Config) (requested cancellationFired deadlineFired : Bool)
    (ending : Except ExecutionTermination α) : Except ExecutionTermination α :=
  if requested then .error .cancelled
  else
    match ending with
    | .error termination => .error termination
    | .ok result =>
        if cancellationFired then .error .cancelled
        else if deadlineFired then .error (.deadline (config.deadline.getD 0))
        else .ok result

/-- Neither of the two early returns of `run_with_termination` applies. -/
def Config.watched (config : Config) : Prop :=
  ¬(config.deadline = none ∧ config.cancellation = false) ∧ config.deadline ≠ some 0

/-- A step of `run_with_termination`. -/
inductive RunStep (config : Config) (m : Memory α) : Memory α → Prop
  | unbounded : m.run = .entry → config.deadline = none → config.cancellation = false →
      RunStep config m { m with run := .unbounded }
  | finished (result : α) : m.run = .unbounded →
      RunStep config m { m with run := .returned (.ok result) }
  | expired : m.run = .entry → config.deadline = some 0 →
      RunStep config m { m with run := .returned (.error (.deadline 0)) }
  | register : m.run = .entry → config.watched → config.cancellation = true →
      config.isolateHandle = true → RunStep config m { m with run := .registerRead }
  | unregistered : m.run = .entry → config.watched →
      ¬(config.cancellation = true ∧ config.isolateHandle = true) →
      RunStep config m { m with run := .spawn }
  | registerRead : m.run = .registerRead →
      RunStep config m { m with run := .registerReplace m.context.isRequested }
  | registerReplace {shouldTerminate : Bool} : m.run = .registerReplace shouldTerminate →
      RunStep config m { m with
        isolate := true, run := if shouldTerminate then .registerTerminate else .spawn }
  | registerTerminate : m.run = .registerTerminate →
      RunStep config m { m with terminated := true, run := .spawn }
  | spawned : m.run = .spawn →
      RunStep config m { m with
        deadlineAt := (config.deadline.map (m.now + ·)).filter (· ≤ config.lastInstant)
        watchdog := some .head
        run := .waiting m.now }
  | spawnFailed (error : IoError) : m.run = .spawn →
      RunStep config m { m with run := .spawnFailed error }
  | giveUp {error : IoError} : m.run = .spawnFailed error →
      RunStep config m { m with
        isolate := m.isolate && !config.cancellation
        run := .returned (.error (.infrastructure error)) }
  | completed {since : Nat} (result : α) : m.run = .waiting since ∨ m.run = .inGrace since →
      RunStep config m { m with run := .send (.ok result) }
  | timeout {since deadline : Nat} : m.run = .waiting since → config.deadline = some deadline →
      since + (deadline + grace) ≤ m.now →
      RunStep config m { m with run := .send (.error (.deadline deadline)) }
  /-- `wait_requested` is ready. -/
  | requested {since : Nat} : m.run = .waiting since → config.cancellation = true →
      m.context.isRequested = true → RunStep config m { m with run := .inGrace m.now }
  | graceOver {since : Nat} : m.run = .inGrace since → since + grace ≤ m.now →
      RunStep config m { m with run := .send (.error .cancelled) }
  | drop {since : Nat} : m.run = .unbounded ∨ m.run = .waiting since ∨ m.run = .inGrace since →
      RunStep config m { m with run := .dropped }
  | send {ending : Except ExecutionTermination α} : m.run = .send ending →
      RunStep config m { m with done := true, run := .join ending }
  | join {ending : Except ExecutionTermination α} : m.run = .join ending →
      m.watchdog = some .exited →
      RunStep config m { m with joined := true, run := .check ending }
  | check {ending : Except ExecutionTermination α} : m.run = .check ending →
      RunStep config m { m with
        checked := some (config.cancellation && m.context.isRequested)
        run := .clear (config.cancellation && m.context.isRequested) ending }
  | clear {requested : Bool} {ending : Except ExecutionTermination α} :
      m.run = .clear requested ending →
      RunStep config m { m with
        isolate := m.isolate && !config.cancellation, run := .conclude requested ending }
  | conclude {requested : Bool} {ending : Except ExecutionTermination α} :
      m.run = .conclude requested ending →
      RunStep config m { m with
        run := .returned
          (conclude config requested m.cancellationFired m.deadlineFired ending) }

/-- The run, its watchdog or the clock moves, or somebody calls `request_with_reason`. -/
inductive Environment (config : Config) (m : Memory α) : Memory α → List RequestPc → Prop
  | run {m' : Memory α} : RunStep config m m' → Environment config m m' []
  | watchdog {m' : Memory α} : WatchdogStep config m m' → Environment config m m' []
  | tick (elapsed : Nat) : Environment config m { m with now := m.now + elapsed } []
  | call (reason : CancelReason) : config.cancellation = true →
      Environment config m m [.insert reason]

/-- A step of the whole. -/
abbrev Step (config : Config) : System α → System α → Prop :=
  Pool.Step (fun m t m' t' spawned => RequestStep m t m' t' ∧ spawned = [])
    (Environment config)

/-- Before the run: a fresh context, which somebody may already be about to cancel. -/
def Memory.start (now : Nat) : Memory α where
  context := .new
  isolate := false
  now := now
  deadlineAt := none
  cancellationFired := false
  deadlineFired := false
  workersClosed := false
  done := false
  run := .entry
  watchdog := none
  terminated := false
  timely := false
  joined := false
  checked := none

/-- The run is about to begin. -/
def Initial (s : System α) : Prop := ∃ now, s = { memory := .start now, threads := [] }

/-! ### The isolate is told -/

/-- The watchdog has fired, or is about to. -/
def WatchdogPc.committed : WatchdogPc → Bool
  | .fire _ | .close | .terminate => true
  | _ => false

/-- The isolate has been told to terminate, or the watchdog is bound to tell it: it has
fired, or the flag is there for its first look. -/
def Covered (m : Memory α) : Prop :=
  m.terminated = true ∨
    m.context.requested = true ∧ (m.watchdog = none ∨ m.watchdog = some .head) ∨
    ∃ pc, m.watchdog = some pc ∧ pc.committed = true

/-- What every step keeps. -/
structure Kept (m m' : Memory α) : Prop where
  requested : m.context.requested = true → m'.context.requested = true
  done : m.done = true → m'.done = true
  covered : Covered m → Covered m'

variable {config : Config} {m m' : Memory α} {t t' : RequestPc}

/-- A step that touches neither the flag, nor the watchdog, nor takes anything back. -/
theorem Kept.of_same (context : m.context.requested = true → m'.context.requested = true)
    (done : m.done = true → m'.done = true) (watchdog : m'.watchdog = m.watchdog)
    (terminated : m.terminated = true → m'.terminated = true) : Kept m m' := by
  refine ⟨context, done, ?_⟩
  rintro (told | ⟨requested, first⟩ | fired)
  · exact .inl (terminated told)
  · exact .inr (.inl ⟨context requested, by rwa [watchdog]⟩)
  · exact .inr (.inr (by rwa [watchdog]))

theorem RequestStep.kept (step : RequestStep m t m' t') : Kept m m' := by
  cases step <;> exact Kept.of_same (by simp) id rfl (by simp)

theorem RunStep.kept (step : RunStep config m m')
    (unwatched : m.run = .spawn → m.watchdog = none) : Kept m m' := by
  cases step with
  | spawned hrun =>
      have hnone := unwatched hrun
      refine ⟨id, id, ?_⟩
      rintro (told | ⟨requested, -⟩ | ⟨pc, fired, -⟩)
      · exact .inl told
      · exact .inr (.inl ⟨requested, .inr rfl⟩)
      · rw [hnone] at fired
        cases fired
  | _ => exact Kept.of_same id (by simp) rfl (by simp)

/-- The watchdog that looks finds the flag, and one that has fired tells the isolate. -/
theorem WatchdogStep.kept (handle : config.isolateHandle = true)
    (cancellation : m.context.requested = true → config.cancellation = true)
    (step : WatchdogStep config m m') : Kept m m' := by
  have telling : ∀ {pc pc' : WatchdogPc}, m.watchdog = some pc → pc ≠ .head →
      (pc.committed = true → m'.terminated = true ∨ pc'.committed = true) →
      (m.terminated = true → m'.terminated = true) → m'.watchdog = some pc' →
      Covered m → Covered m' := by
    intro pc pc' hpc hhead hcommitted hterminated hpc' hcovered
    rcases hcovered with told | ⟨-, hnone | hfirst⟩ | ⟨pc'', hpc'', fired⟩
    · exact .inl (hterminated told)
    · rw [hpc] at hnone
      cases hnone
    · rw [hpc] at hfirst
      exact absurd (Option.some.inj hfirst) hhead
    · rw [hpc] at hpc''
      obtain rfl := Option.some.inj hpc''
      rcases hcommitted fired with told | next
      · exact .inl told
      · exact .inr (.inr ⟨pc', hpc', next⟩)
  cases step with
  | requested hpc _ _ => exact ⟨id, id, fun _ => .inr (.inr ⟨_, rfl, rfl⟩)⟩
  | quiet hpc unseen =>
      refine ⟨id, id, ?_⟩
      rintro (told | ⟨requested, -⟩ | ⟨pc, fired, committed⟩)
      · exact .inl told
      · exact absurd ⟨cancellation requested, requested⟩ unseen
      · rw [hpc] at fired
        obtain rfl := Option.some.inj fired
        cases committed
  | received hpc _ => exact ⟨id, id, telling hpc (by simp) (by simp [WatchdogPc.committed]) id rfl⟩
  | timeout hpc => exact ⟨id, id, telling hpc (by simp) (by simp [WatchdogPc.committed]) id rfl⟩
  | passed hpc _ _ => exact ⟨id, id, fun _ => .inr (.inr ⟨_, rfl, rfl⟩)⟩
  | ahead hpc _ => exact ⟨id, id, telling hpc (by simp) (by simp [WatchdogPc.committed]) id rfl⟩
  | fireCancellation hpc => exact ⟨id, id, fun _ => .inr (.inr ⟨_, rfl, rfl⟩)⟩
  | fireDeadline hpc => exact ⟨id, id, fun _ => .inr (.inr ⟨_, rfl, rfl⟩)⟩
  | close hpc => exact ⟨id, id, fun _ => .inr (.inr ⟨_, rfl, rfl⟩)⟩
  | terminate hpc => exact ⟨id, id, fun _ => .inl (by simp [handle])⟩

/-! ### Where everybody stands -/

/-- What the place of the run says about the watchdog. -/
def RunPc.Watchdog : RunPc α → Option WatchdogPc → Prop
  | .waiting _, watchdog | .inGrace _, watchdog | .send _, watchdog | .join _, watchdog =>
      watchdog ≠ none
  | .check _, watchdog | .clear _ _, watchdog | .conclude _ _, watchdog =>
      watchdog = some .exited
  | .returned _, watchdog => watchdog = none ∨ watchdog = some .exited
  | .dropped, _ => True
  | _, watchdog => watchdog = none

/-- The done signal has been sent. -/
def RunPc.sent : RunPc α → Bool
  | .join _ | .check _ | .clear _ _ | .conclude _ _ => true
  | _ => false

/-- `register` has put the handle into the context. -/
def RunPc.registered : RunPc α → Bool
  | .registerTerminate | .spawn => true
  | _ => false

/-- What the run knows of its last look at the context, and what it made of it. -/
def RunPc.Answers (config : Config) (checked : Option Bool) (deadlineFired : Bool) :
    RunPc α → Prop
  | .unbounded => checked = none ∧ config.cancellation = false
  | .clear requested _ | .conclude requested _ => checked = some requested
  | .returned result => (checked = some true → result = .error .cancelled) ∧
      ∀ value, result = .ok value →
        (config.cancellation = true → checked = some false) ∧ deadlineFired = false
  | _ => checked = none

structure Inv (config : Config) (m : Memory α) : Prop where
  watchdog : m.run.Watchdog m.watchdog
  sent : m.run.sent = true → m.done = true
  registered : config.cancellation = true → m.run.registered = true → m.isolate = true
  isolate : config.cancellation = true → m.watchdog ≠ none → m.isolate = true ∨ m.done = true
  requested : m.context.requested = true → config.cancellation = true
  timely : m.timely = true → Covered m
  joined : m.joined = true → m.watchdog = some .exited
  unfired : m.watchdog = none → m.deadlineFired = false
  answers : m.run.Answers config m.checked m.deadlineFired

/-- What is known of a call of `request_with_reason`: once it has looked for the isolate in
vain, the isolate is covered, or the run is over. -/
def RequestInv (config : Config) (m : Memory α) (t : RequestPc) : Prop :=
  config.cancellation = true ∧
    match t with
    | .notify | .readIsolate | .terminate true => m.context.requested = true
    | .terminate false | .leave => Covered m ∨ m.done = true
    | _ => True

theorem RequestInv.kept (inv : RequestInv config m t) (kept : Kept m m') :
    RequestInv config m' t := by
  refine ⟨inv.1, ?_⟩
  have known := inv.2
  cases t with
  | notify => exact kept.requested known
  | readIsolate => exact kept.requested known
  | terminate found =>
      cases found with
      | true => exact kept.requested known
      | false => exact known.imp kept.covered kept.done
  | leave => exact known.imp kept.covered kept.done
  | _ => trivial

/-- A call that finds no isolate came before the watchdog, or after the run. -/
theorem RequestStep.own (inv : Inv config m) (known : RequestInv config m t)
    (step : RequestStep m t m' t') : RequestInv config m' t' := by
  obtain ⟨cancellation, hknown⟩ := known
  refine ⟨cancellation, ?_⟩
  cases step with
  | insert => trivial
  | store => rfl
  | notify => exact hknown
  | readIsolate =>
      cases hisolate : m.isolate with
      | true => exact hknown
      | false =>
          by_cases hwatchdog : m.watchdog = none
          · exact .inl (.inr (.inl ⟨hknown, .inl hwatchdog⟩))
          · rcases inv.isolate cancellation hwatchdog with hset | hdone
            · rw [hisolate] at hset
              cases hset
            · exact .inr hdone
  | terminate => exact .inl (.inl rfl)
  | nothing => exact hknown
  | leave => trivial

theorem RequestStep.inv (inv : Inv config m) (known : RequestInv config m t)
    (step : RequestStep m t m' t') : Inv config m' := by
  have kept := step.kept
  have timely : m'.timely = true → Covered m' := by
    cases step with
    | leave =>
        intro htimely
        have hknown := known.2
        have hcovered : Covered m := by
          simp only [Bool.or_eq_true, Bool.not_eq_true'] at htimely
          rcases htimely with hbefore | hrunning
          · exact inv.timely hbefore
          · rcases hknown with hcovered | hdone
            · exact hcovered
            · rw [hrunning] at hdone
              cases hdone
        exact kept.covered hcovered
    | _ => exact fun htimely => kept.covered (inv.timely htimely)
  cases step with
  | store => exact { inv with timely := timely, requested := fun _ => known.1 }
  | _ => exact { inv with timely := timely }

/-- The watchdog moves only while it runs, and it runs only while the run waits for it. -/
theorem WatchdogStep.running (step : WatchdogStep config m m') :
    m.watchdog ≠ none ∧ m.watchdog ≠ some .exited ∧ m'.watchdog ≠ none := by
  cases step <;> simp_all

theorem RunPc.Watchdog.kept {run : RunPc α} {watchdog watchdog' : Option WatchdogPc}
    (h : run.Watchdog watchdog) (running : watchdog ≠ none ∧ watchdog ≠ some .exited)
    (running' : watchdog' ≠ none) : run.Watchdog watchdog' := by
  cases run with
  | waiting => exact running'
  | inGrace => exact running'
  | send => exact running'
  | join => exact running'
  | check => exact absurd h running.2
  | clear => exact absurd h running.2
  | conclude => exact absurd h running.2
  | returned =>
      rcases h with h | h
      · exact absurd h running.1
      · exact absurd h running.2
  | dropped => trivial
  | _ => exact absurd h running.1

theorem WatchdogStep.inv (handle : config.isolateHandle = true) (inv : Inv config m)
    (step : WatchdogStep config m m') : Inv config m' := by
  have kept := step.kept handle inv.requested
  obtain ⟨running, notExited, running'⟩ := step.running
  have watchdog : m.run.Watchdog m'.watchdog :=
    inv.watchdog.kept ⟨running, notExited⟩ running'
  have joined : m.joined = true → m'.watchdog = some .exited :=
    fun hjoined => absurd (inv.joined hjoined) notExited
  have isolate : config.cancellation = true → m'.watchdog ≠ none →
      m.isolate = true ∨ m.done = true := fun cancellation _ => inv.isolate cancellation running
  have unfired : m'.watchdog = none → m'.deadlineFired = false := fun hnone => absurd hnone running'
  have timely : m'.timely = true → Covered m' := by
    cases step with
    | passed => exact fun _ => .inr (.inr ⟨_, rfl, rfl⟩)
    | _ => exact fun htimely => kept.covered (inv.timely htimely)
  cases step with
  | fireDeadline hpc =>
      -- The run has not returned: its watchdog is running.
      have answers : m.run.Answers config m.checked true := by
        have hwatchdog := inv.watchdog
        have hanswers := inv.answers
        cases hrun : m.run with
        | returned =>
            rw [hrun] at hwatchdog
            rcases hwatchdog with h | h
            · exact absurd h running
            · exact absurd h notExited
        | _ => rw [hrun] at hanswers; exact hanswers
      exact { inv with watchdog, joined, isolate, unfired, timely, answers }
  | _ => exact { inv with watchdog, joined, isolate, unfired, timely }

theorem conclude_cancelled {cancellationFired deadlineFired : Bool}
    {ending : Except ExecutionTermination α} :
    conclude config true cancellationFired deadlineFired ending = .error .cancelled := rfl

/-- A value gets through only if no request was found and nothing fired. -/
theorem conclude_ok {requested cancellationFired deadlineFired : Bool}
    {ending : Except ExecutionTermination α} {value : α}
    (h : conclude config requested cancellationFired deadlineFired ending = .ok value) :
    requested = false ∧ cancellationFired = false ∧ deadlineFired = false := by
  unfold conclude at h
  cases requested with
  | true => cases h
  | false =>
      cases ending with
      | error termination => cases h
      | ok result =>
          cases cancellationFired with
          | true => cases h
          | false =>
              cases deadlineFired with
              | true => cases h
              | false => exact ⟨rfl, rfl, rfl⟩

/-- The watchdog where the run stands after a step of the run. -/
theorem RunStep.watchdog (step : RunStep config m m') (h : m.run.Watchdog m.watchdog) :
    m'.run.Watchdog m'.watchdog := by
  cases step with
  | @registerReplace shouldTerminate hrun =>
      rw [hrun] at h
      cases shouldTerminate <;> exact h
  | completed result hrun => rcases hrun with hrun | hrun <;> rw [hrun] at h <;> exact h
  | drop hrun => trivial
  | _ => simp_all [RunPc.Watchdog]

theorem RunStep.sent (step : RunStep config m m') (h : m.run.sent = true → m.done = true) :
    m'.run.sent = true → m'.done = true := by
  cases step with
  | @registerReplace shouldTerminate hrun => cases shouldTerminate <;> exact nofun
  | _ => simp_all [RunPc.sent]

/-- Once the handle is registered it stays until the run is over. -/
theorem RunStep.isolate (step : RunStep config m m') (inv : Inv config m)
    (handle : config.isolateHandle = true) (cancellation : config.cancellation = true) :
    (m'.run.registered = true → m'.isolate = true) ∧
      (m'.watchdog ≠ none → m'.isolate = true ∨ m'.done = true) := by
  have registered := inv.registered cancellation
  have isolate := inv.isolate cancellation
  cases step with
  | unregistered hrun _ h => exact absurd ⟨cancellation, handle⟩ h
  | registerReplace hrun => exact ⟨fun _ => rfl, fun _ => .inl rfl⟩
  | registerTerminate hrun => exact ⟨fun _ => registered (by rw [hrun]; rfl), isolate⟩
  | spawned hrun => exact ⟨nofun, fun _ => .inl (registered (by rw [hrun]; rfl))⟩
  | giveUp hrun =>
      have watchdog := inv.watchdog
      rw [hrun] at watchdog
      exact ⟨nofun, fun hsome => absurd watchdog hsome⟩
  | send hrun => exact ⟨nofun, fun _ => .inr rfl⟩
  | clear hrun => exact ⟨nofun, fun _ => .inr (inv.sent (by rw [hrun]; rfl))⟩
  | _ => exact ⟨nofun, isolate⟩

/-- An early return, before the context was looked at. -/
theorem answers_early {checked : Option Bool} {deadlineFired : Bool}
    {termination : ExecutionTermination} (h : checked = none) :
    (RunPc.returned (.error termination) : RunPc α).Answers config checked deadlineFired := by
  refine ⟨fun hchecked => ?_, fun value hok => ?_⟩
  · rw [h] at hchecked
    cases hchecked
  · cases hok

theorem RunStep.answers (step : RunStep config m m') (inv : Inv config m) :
    m'.run.Answers config m'.checked m'.deadlineFired := by
  have h := inv.answers
  cases step with
  | unbounded hrun _ hcancellation =>
      rw [hrun] at h
      exact ⟨h, hcancellation⟩
  | finished result hrun =>
      have watchdog := inv.watchdog
      rw [hrun] at h watchdog
      refine ⟨fun hchecked => ?_, fun value _ => ⟨fun hcancellation => ?_, inv.unfired watchdog⟩⟩
      · rw [h.1] at hchecked
        cases hchecked
      · rw [h.2] at hcancellation
        cases hcancellation
  | expired hrun _ =>
      rw [hrun] at h
      exact answers_early h
  | @registerReplace shouldTerminate hrun =>
      rw [hrun] at h
      cases shouldTerminate <;> exact h
  | giveUp hrun =>
      rw [hrun] at h
      exact answers_early h
  | completed result hrun => rcases hrun with hrun | hrun <;> rw [hrun] at h <;> exact h
  | drop hrun =>
      rcases hrun with hrun | hrun | hrun
      · rw [hrun] at h
        exact h.1
      · rw [hrun] at h
        exact h
      · rw [hrun] at h
        exact h
  | check hrun => rfl
  | @conclude requested ending hrun =>
      rw [hrun] at h
      refine ⟨fun hchecked => ?_, fun value hok => ?_⟩
      · rw [h] at hchecked
        obtain rfl := Option.some.inj hchecked
        exact conclude_cancelled
      · obtain ⟨rfl, -, hunfired⟩ := conclude_ok hok
        exact ⟨fun _ => h, hunfired⟩
  | _ => simp_all [RunPc.Answers]

theorem RunStep.inv (handle : config.isolateHandle = true) (inv : Inv config m)
    (step : RunStep config m m') : Inv config m' := by
  have unwatched : m.run = .spawn → m.watchdog = none := by
    intro hrun
    have watchdog := inv.watchdog
    rw [hrun] at watchdog
    exact watchdog
  have kept := step.kept unwatched
  have isolate := step.isolate inv handle
  refine
    { watchdog := step.watchdog inv.watchdog
      sent := step.sent inv.sent
      registered := fun cancellation => (isolate cancellation).1
      isolate := fun cancellation => (isolate cancellation).2
      requested := ?_
      timely := ?_
      joined := ?_
      unfired := ?_
      answers := step.answers inv }
  · cases step <;> exact inv.requested
  · intro htimely
    refine kept.covered (inv.timely ?_)
    cases step <;> exact htimely
  · cases step with
    | spawned hrun =>
        intro hjoined
        have hexited := inv.joined hjoined
        rw [unwatched hrun] at hexited
        cases hexited
    | join hrun hexited => exact fun _ => hexited
    | _ => exact inv.joined
  · cases step with
    | spawned hrun => exact fun hnone => by cases hnone
    | _ => exact inv.unfired

/-! ### Every run -/

/-- The invariant of the whole. -/
def SystemInv (config : Config) (s : System α) : Prop :=
  Inv config s.memory ∧ ∀ t ∈ s.threads, RequestInv config s.memory t

theorem Inv.start (config : Config) (now : Nat) : Inv config (Memory.start now : Memory α) where
  watchdog := rfl
  sent := nofun
  registered := nofun
  isolate := fun _ h => absurd rfl h
  requested := nofun
  timely := nofun
  joined := nofun
  unfired := fun _ => rfl
  answers := rfl

/-- What the environment does keeps the invariant, and covers what was covered. -/
theorem Environment.inv (handle : config.isolateHandle = true) {spawned : List RequestPc}
    (inv : Inv config m) (step : Environment config m m' spawned) :
    Inv config m' ∧ Kept m m' := by
  cases step with
  | run step =>
      refine ⟨step.inv handle inv, step.kept fun hrun => ?_⟩
      have watchdog := inv.watchdog
      rw [hrun] at watchdog
      exact watchdog
  | watchdog step => exact ⟨step.inv handle inv, step.kept handle inv.requested⟩
  | tick elapsed => exact ⟨{ inv with }, ⟨id, id, id⟩⟩
  | call reason cancellation => exact ⟨inv, ⟨id, id, id⟩⟩

theorem SystemInv.step (handle : config.isolateHandle = true) {s s' : System α}
    (inv : SystemInv config s) (step : Step config s s') : SystemInv config s' := by
  obtain ⟨hmemory, hthreads⟩ := inv
  refine ⟨?_, ?_⟩
  · cases step with
    | thread before after h => exact h.1.inv hmemory (hthreads _ (by simp))
    | environment threads h => exact (h.inv handle hmemory).1
  · refine Pool.Step.threads (K := fun s => Inv config s.memory) ?_ ?_ ?_ step hmemory hthreads
    · rintro m t m' t' spawned before after hinv ⟨h, rfl⟩ ht
      exact ⟨h.own hinv ht, by simp⟩
    · rintro m t m' t' spawned before after u hinv - ⟨h, -⟩ - hu
      exact hu.kept h.kept
    · intro m m' spawned threads hinv h
      refine ⟨fun u _ hu => hu.kept (h.inv handle hinv).2, ?_⟩
      cases h with
      | call reason cancellation =>
          intro u hu
          obtain rfl := List.mem_singleton.mp hu
          exact ⟨cancellation, trivial⟩
      | _ => simp

theorem systemInv_of_reachable (handle : config.isolateHandle = true) {s : System α}
    (reach : Reachable Initial (Step config) s) : SystemInv config s := by
  refine reach.invariant ?_ fun s t inv step => inv.step handle step
  rintro s ⟨now, rfl⟩
  exact ⟨Inv.start config now, by simp⟩

/-- A run with an isolate handle, under every interleaving of the run, its watchdog and any
number of cancellation requests:

* when the watchdog has been joined, and before the done signal a request had returned or
  the watchdog had seen the deadline pass, the isolate was told to terminate;
* a value is returned only if the last look at the context found no request and the watchdog
  did not fire for the deadline;
* if that look found one, the result is `Cancelled`. -/
theorem run_with_termination_terminates (config : Config) (handle : config.isolateHandle = true)
    (s : System α) (reach : Reachable Initial (Step config) s) :
    (s.memory.joined = true → s.memory.timely = true → s.memory.terminated = true) ∧
    (∀ value, s.memory.run = .returned (.ok value) →
      (config.cancellation = true → s.memory.checked = some false) ∧
        s.memory.deadlineFired = false) ∧
    (∀ result, s.memory.run = .returned result → s.memory.checked = some true →
      result = .error .cancelled) := by
  obtain ⟨inv, -⟩ := systemInv_of_reachable handle reach
  have answers := inv.answers
  refine ⟨fun hjoined htimely => ?_, fun value hrun => ?_, fun result hrun hchecked => ?_⟩
  · have hexited := inv.joined hjoined
    rcases inv.timely htimely with told | ⟨-, hnone | hfirst⟩ | ⟨pc, hpc, committed⟩
    · exact told
    · rw [hexited] at hnone
      cases hnone
    · rw [hexited] at hfirst
      cases hfirst
    · rw [hexited] at hpc
      obtain rfl := Option.some.inj hpc
      cases committed
  · rw [hrun] at answers
    exact answers.2 value rfl
  · rw [hrun] at answers
    exact answers.1 hchecked

/-! ### A request before the run -/

def sampleConfig : Config :=
  { deadline := none, isolateHandle := true, cancellation := true, workerLifecycle := true,
    lastInstant := 0 }

/-- The request is over before `register` looks at the flag; the watchdog finds it again. -/
def sampleCancelled : System Unit where
  threads := [.returned]
  memory :=
    { context := { requested := true, reason := some .user }, isolate := false, now := 0
      deadlineAt := none, cancellationFired := true, deadlineFired := false
      workersClosed := true, done := true, run := .returned (.error .cancelled)
      watchdog := some .exited, terminated := true, timely := true, joined := true
      checked := some true }

theorem sampleConfig_watched : sampleConfig.watched :=
  ⟨fun h => (by cases h.2), by simp [sampleConfig]⟩

theorem sampleCancelled_reachable : Reachable Initial (Step sampleConfig) sampleCancelled := by
  have start : Reachable Initial (Step sampleConfig)
      ({ memory := .start 0, threads := [] } : System Unit) := .start ⟨0, rfl⟩
  have called := start.snoc (.environment [] (.call .user rfl))
  have inserted := called.snoc (.thread [] [] ⟨.insert .user, rfl⟩)
  have stored := inserted.snoc (.thread [] [] ⟨.store, rfl⟩)
  have notified := stored.snoc (.thread [] [] ⟨.notify, rfl⟩)
  have looked := notified.snoc (.thread [] [] ⟨.readIsolate, rfl⟩)
  have missed := looked.snoc (.thread [] [] ⟨.nothing, rfl⟩)
  have left := missed.snoc (.thread [] [] ⟨.leave, rfl⟩)
  have entered := left.snoc (.environment _ (.run (.register rfl sampleConfig_watched rfl rfl)))
  have read := entered.snoc (.environment _ (.run (.registerRead rfl)))
  have replaced := read.snoc (.environment _ (.run (.registerReplace rfl)))
  have told := replaced.snoc (.environment _ (.run (.registerTerminate rfl)))
  have spawned := told.snoc (.environment _ (.run (.spawned rfl)))
  have seen := spawned.snoc (.environment _ (.watchdog (.requested rfl rfl rfl)))
  have fired := seen.snoc (.environment _ (.watchdog (.fireCancellation rfl)))
  have closed := fired.snoc (.environment _ (.watchdog (.close rfl)))
  have exited := closed.snoc (.environment _ (.watchdog (.terminate rfl)))
  have completed := exited.snoc (.environment _ (.run (.completed () (.inl rfl))))
  have sent := completed.snoc (.environment _ (.run (.send rfl)))
  have joined := sent.snoc (.environment _ (.run (.join rfl rfl)))
  have checked := joined.snoc (.environment _ (.run (.check rfl)))
  have cleared := checked.snoc (.environment _ (.run (.clear rfl)))
  have concluded := cleared.snoc (.environment _ (.run (.conclude rfl)))
  exact concluded

theorem run_with_termination_terminates_sample :
    sampleCancelled.memory.terminated = true ∧
      sampleCancelled.memory.run = .returned (.error .cancelled) := by
  obtain ⟨told, -, cancelled⟩ := run_with_termination_terminates sampleConfig rfl
    sampleCancelled sampleCancelled_reachable
  exact ⟨told rfl rfl, congrArg _ (cancelled _ rfl rfl)⟩

end Libdeno.Limits
