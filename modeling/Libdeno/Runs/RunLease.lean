import Libdeno.Library.Pool
import Libdeno.Library.Transition
import Libdeno.Runs.Workers
import Libdeno.Supervisor.TerminalMapping

/-!
# Libdeno.Runs.RunLease

`RunLease`: runs in parallel, or one capture or installation of a permission broker alone.
The lock is one atomic word, `RUN_STATE`, that counts ordinary runs or holds a marker; the
workers a run leaves behind are counted apart, in `ACTIVE_WORKERS`.

The system has any number of threads. Each load, compare-exchange, store and `fetch_sub`
of the word and each read of the count is a step; so is each section of a registry of
workers, of which other threads see nothing but its change of the count. A worker is
reserved for a run that holds a lease or for a live worker, which waits for the answer.
-/

namespace Libdeno.Runs

open Supervisor

/-! ### The lease -/

/-- `usize::MAX`. -/
def usizeMax : Nat := UInt64.size - 1

/-- The two exclusive markers. -/
inductive Marker
  | capture
  | brokerInstall
  deriving Repr, DecidableEq

/-- `CAPTURE_MARKER` and `BROKER_INSTALL_MARKER`. -/
def Marker.value : Marker → Nat
  | .capture => usizeMax
  | .brokerInstall => usizeMax - 1

/-- `capture_blocked_by_worker`. -/
def captureBlockedByWorker : LibdenoError :=
  .configuration <|
    "output capture is process-global and cannot coexist with an active run or worker; use " ++
      "run_in_subprocess_with_output instead"

/-- `broker_install_in_progress`. -/
def brokerInstallInProgress : LibdenoError :=
  .configuration <|
    "a permission broker or hook is being installed; runs cannot start until installation " ++
      "completes"

/-- `broker_install_blocked`. -/
def brokerInstallBlocked : LibdenoError :=
  .configuration "permission broker or hook installation requires no active runs or workers"

/-- The `conflict` of `acquire_exclusive`. -/
def Marker.conflict : Marker → LibdenoError
  | .brokerInstall => brokerInstallBlocked
  | .capture => captureBlockedByWorker

/-- `RunLease`. -/
structure RunLease where
  exclusiveMarker : Option Marker
  deriving Repr, DecidableEq

/-- `fetch_sub(1)`. -/
def fetchSub (word : Nat) : Nat := (word + usizeMax) % (usizeMax + 1)

/-! ### The shared memory and the threads -/

/-- What the threads share. The last two fields are history: how many leases were
acquired, and which of them were dropped. A lease and its registry go by the number of
leases acquired before. -/
structure Memory where
  runState : Nat
  activeWorkers : Nat
  registrationId : UInt64
  registries : Nat → RegistryState
  acquired : Nat
  ended : List Nat

/-- Nothing has run yet. -/
def Memory.initial : Memory where
  runState := 0
  activeWorkers := 0
  registrationId := 1
  registries := fun _ => .new
  acquired := 0
  ended := []

/-- After a section of a run's registry. -/
def Memory.setRegistry (m : Memory) (run : Nat) (state : RegistryState) : Memory :=
  { m with registries := Function.update m.registries run state }

/-- Who may reserve workers: a run with its lease, or a worker. -/
inductive Actor
  | run (lease : RunLease) (run : Nat)
  | worker (run : Nat) (workerId : UInt32) (registrationId : UInt64)

namespace Actor

/-- The run an actor belongs to. -/
def runId : Actor → Nat
  | .run _ number | .worker number _ _ => number

/-- The thread id an actor's workers have as their parent. -/
def threadId : Actor → UInt32
  | .run _ _ => 0
  | .worker _ workerId _ => workerId

/-- A worker is live while its registration is on record. -/
def live (m : Memory) : Actor → Bool
  | .run _ _ => true
  | .worker number workerId registrationId =>
      (m.registries number).registered workerId registrationId

end Actor

/-- Where a thread stands. -/
inductive Pc
  /-- `acquire`, at the top of its loop. -/
  | load
  | exchange (cur : Nat)
  /-- `acquire_exclusive`, before its first look at the workers. -/
  | exclusive (marker : Marker)
  | claim (marker : Marker)
  /-- The word has the marker; before the second look. -/
  | recheck (marker : Marker)
  | rollback (marker : Marker)
  | failed (error : LibdenoError)
  | active (actor : Actor)
  | reserving (actor : Actor) (workerId : UInt32) (registrationId : UInt64)
  | done

/-- `RunLease::acquire`, and `acquire_broker_install` below. -/
def acquire (captured : Bool) : Pc := if captured then .exclusive .capture else .load

def acquireBrokerInstall : Pc := .exclusive .brokerInstall

/-- One step of a thread. -/
inductive ThreadStep (m : Memory) : Pc → Memory → Pc → List Pc → Prop
  | captureRuns : m.runState = Marker.capture.value →
      ThreadStep m .load m (.failed captureBlockedByWorker) []
  | installRuns : m.runState = Marker.brokerInstall.value →
      ThreadStep m .load m (.failed brokerInstallInProgress) []
  | load : (∀ marker : Marker, m.runState ≠ marker.value) →
      ThreadStep m .load m (.exchange m.runState) []
  | exchanged {cur : Nat} : m.runState = cur →
      ThreadStep m (.exchange cur) { m with runState := cur + 1, acquired := m.acquired + 1 }
        (.active (.run { exclusiveMarker := none } m.acquired)) []
  | retry {cur : Nat} : m.runState ≠ cur → ThreadStep m (.exchange cur) m .load []
  | workersLive {marker : Marker} : m.activeWorkers ≠ 0 →
      ThreadStep m (.exclusive marker) m (.failed marker.conflict) []
  | noWorkers {marker : Marker} : m.activeWorkers = 0 →
      ThreadStep m (.exclusive marker) m (.claim marker) []
  | refused {marker : Marker} : m.runState ≠ 0 →
      ThreadStep m (.claim marker) m
        (.failed
          (if m.runState = Marker.brokerInstall.value then brokerInstallInProgress
          else marker.conflict))
        []
  | claimed {marker : Marker} : m.runState = 0 →
      ThreadStep m (.claim marker) { m with runState := marker.value } (.recheck marker) []
  | workersAppeared {marker : Marker} : m.activeWorkers ≠ 0 →
      ThreadStep m (.recheck marker) m (.rollback marker) []
  | granted {marker : Marker} : m.activeWorkers = 0 →
      ThreadStep m (.recheck marker) { m with acquired := m.acquired + 1 }
        (.active (.run { exclusiveMarker := some marker } m.acquired)) []
  | rollback {marker : Marker} :
      ThreadStep m (.rollback marker) { m with runState := 0 } (.failed marker.conflict) []
  /-- `drop` of the lease. -/
  | drop {lease : RunLease} {run : Nat} :
      ThreadStep m (.active (.run lease run))
        { m with
          runState := if lease.exclusiveMarker.isSome then 0 else fetchSub m.runState
          ended := m.ended ++ [run] }
        .done []
  | close {lease : RunLease} {run : Nat} :
      ThreadStep m (.active (.run lease run)) (m.setRegistry run (m.registries run).close)
        (.active (.run lease run)) []
  /-- `reserve`, up to its section. -/
  | register {actor : Actor} (workerId : UInt32) :
      ThreadStep m (.active actor) { m with registrationId := m.registrationId + 1 }
        (.reserving actor workerId m.registrationId) []
  | reserve {actor : Actor} {workerId : UInt32} {registrationId : UInt64} {added : Nat}
      {state : RegistryState} :
      actor.live m = true →
      (m.registries actor.runId).reserve workerId
        { registrationId, parentId := actor.threadId } = (some added, state) →
      ThreadStep m (.reserving actor workerId registrationId)
        { m.setRegistry actor.runId state with activeWorkers := m.activeWorkers + added }
        (.active actor) [.active (.worker actor.runId workerId registrationId)]
  | reserveRefused {actor : Actor} {workerId : UInt32} {registrationId : UInt64}
      {state : RegistryState} :
      (m.registries actor.runId).reserve workerId
        { registrationId, parentId := actor.threadId } = (none, state) →
      ThreadStep m (.reserving actor workerId registrationId) m (.active actor) []
  /-- The registration of a worker is dropped. -/
  | unregister {run : Nat} {workerId : UInt32} {registrationId : UInt64} {removed : Nat}
      {state : RegistryState} :
      (m.registries run).unregister workerId registrationId = (removed, state) →
      ThreadStep m (.active (.worker run workerId registrationId))
        { m.setRegistry run state with activeWorkers := m.activeWorkers - removed } .done []

/-- Callers arrive. -/
inductive CallStep (m : Memory) : Memory → List Pc → Prop
  | acquire (captured : Bool) : CallStep m m [acquire captured]
  | acquireBrokerInstall : CallStep m m [acquireBrokerInstall]

/-- Memory and threads. -/
abbrev System := Pool Memory Pc

def System.initial : System := { memory := .initial, threads := [] }

/-! ### Who has a part in the word -/

/-- A thread's part in the word: an ordinary lease, or an exclusive one that it holds,
acquires or gives back. -/
inductive Part
  | ordinary
  | exclusive (marker : Marker)
  deriving Repr, DecidableEq

/-- The part a lease stands for. -/
def RunLease.part (lease : RunLease) : Part :=
  match lease.exclusiveMarker with
  | some marker => .exclusive marker
  | none => .ordinary

/-- The lease an actor holds, with its number. -/
def Actor.lease? : Actor → Option (RunLease × Nat)
  | .run lease number => some (lease, number)
  | .worker _ _ _ => none

/-- The actor a thread is. -/
def Pc.actor? : Pc → Option Actor
  | .active actor | .reserving actor _ _ => some actor
  | _ => none

/-- The lease a thread holds, with its number. -/
def Pc.lease? (t : Pc) : Option (RunLease × Nat) := t.actor?.bind Actor.lease?

def Pc.part? : Pc → Option Part
  | .recheck marker | .rollback marker => some (.exclusive marker)
  | .active actor | .reserving actor _ _ => actor.lease?.map fun lease => lease.1.part
  | _ => none

@[simp] theorem part_ordinary : RunLease.part ⟨none⟩ = .ordinary := rfl

@[simp] theorem part_exclusive (marker : Marker) :
    RunLease.part ⟨some marker⟩ = .exclusive marker := rfl

@[simp] theorem lease?_run (lease : RunLease) (run : Nat) :
    (Actor.run lease run).lease? = some (lease, run) := rfl

@[simp] theorem lease?_worker (run : Nat) (workerId : UInt32) (registrationId : UInt64) :
    (Actor.worker run workerId registrationId).lease? = none := rfl

/-- How many threads have this part. -/
def System.live (s : System) (part : Part) : Nat := s.threads.countP (·.part? = some part)

/-- Fewer ordinary leases are live than the word can count. -/
def Bounded (s : System) : Prop := s.live .ordinary < usizeMax - 1

instance : DecidablePred Bounded := fun s =>
  inferInstanceAs (Decidable (s.live .ordinary < usizeMax - 1))

/-- A step of the system after which the ordinary leases can be counted. -/
def LeaseStep (s s' : System) : Prop := Pool.Step ThreadStep CallStep s s' ∧ Bounded s'

/-! ### The word -/

/-- The word counts the ordinary leases, or is the marker of the only thread that has a
part in it. -/
inductive Word (runState : Nat) (n : Part → ℕ) : Prop
  | ordinary : (∀ marker, n (.exclusive marker) = 0) → runState = n .ordinary → Word runState n
  | exclusive (marker : Marker) : n .ordinary = 0 → n (.exclusive marker) = 1 →
      (∀ other, other ≠ marker → n (.exclusive other) = 0) → runState = marker.value →
      Word runState n

/-- A thread's contribution to the parts. -/
def Pc.census : Pc → Part → ℕ := Pool.census Pc.part?

theorem live_eq (s : System) (part : Part) : s.live part = Pool.tally Pc.census s.threads part :=
  (Pool.tally_census _ _ _).symm

theorem Marker.value_pos (marker : Marker) : 0 < marker.value := by
  cases marker <;> decide

@[simp] theorem census_apply (t : Pc) (part : Part) :
    t.census part = if t.part? = some part then 1 else 0 := rfl

section Word

variable {m m' : Memory} {t t' : Pc} {spawned : List Pc} {rest : Part → ℕ} {part : Part}

/-- With a part in the word, nobody has one of another kind. -/
theorem Word.of_exclusive {runState : Nat} {n : Part → ℕ} (inv : Word runState n)
    (marker : Marker) (h : 0 < n (.exclusive marker)) :
    runState = marker.value ∧ n .ordinary = 0 ∧ n (.exclusive marker) = 1 ∧
      ∀ other, other ≠ marker → n (.exclusive other) = 0 := by
  cases inv with
  | ordinary hnone hcount =>
      rw [hnone] at h
      omega
  | exclusive own hzero hone hothers hvalue =>
      by_cases hown : marker = own
      · subst hown
        exact ⟨hvalue, hzero, hone, hothers⟩
      · rw [hothers marker hown] at h
        omega

theorem Word.of_ordinary {runState : Nat} {n : Part → ℕ} (inv : Word runState n)
    (h : 0 < n .ordinary) : runState = n .ordinary ∧ ∀ marker, n (.exclusive marker) = 0 := by
  cases inv with
  | ordinary hnone hcount => exact ⟨hcount, hnone⟩
  | exclusive own hzero hone hothers hvalue => omega

/-- A word that is no marker counts the ordinary leases. -/
theorem Word.of_value {runState : Nat} {n : Part → ℕ} (inv : Word runState n)
    (h : ∀ marker : Marker, runState ≠ marker.value) :
    runState = n .ordinary ∧ ∀ marker, n (.exclusive marker) = 0 := by
  cases inv with
  | ordinary hnone hcount => exact ⟨hcount, hnone⟩
  | exclusive own hzero hone hothers hvalue => exact absurd hvalue (h own)

/-- A thread goes on with the part it has. -/
theorem Word.quiet {runState : Nat} (inv : Word runState (t.census + rest))
    (same : t'.part? = t.part?) (spawns : Pool.tally Pc.census spawned = 0) :
    Word runState (t'.census + Pool.tally Pc.census spawned + rest) := by
  have hcensus : t'.census = t.census := by
    funext part
    rw [census_apply, census_apply, same]
  rwa [hcensus, spawns, add_zero]

/-- A step that takes or gives back an ordinary lease. -/
theorem Word.count {runState runState' : Nat} {n n' : Part → ℕ} (inv : Word runState n)
    (none : ∀ marker, n (.exclusive marker) = 0)
    (exclusive : ∀ marker, n' (.exclusive marker) = n (.exclusive marker))
    (value : runState = n .ordinary → runState' = n' .ordinary) : Word runState' n' := by
  refine .ordinary (fun marker => (exclusive marker).trans (none marker)) (value ?_)
  cases inv with
  | ordinary hnone hcount => exact hcount
  | exclusive own hzero hone hothers hvalue =>
      rw [none own] at hone
      omega

theorem fetchSub_succ {n : Nat} (h : n + 1 ≤ usizeMax) : fetchSub (n + 1) = n := by
  unfold fetchSub
  rw [show n + 1 + usizeMax = n + (usizeMax + 1) by omega, Nat.add_mod_right]
  exact Nat.mod_eq_of_lt (by omega)

theorem fetchSub_add_one {n : Nat} (pos : 0 < n) (le : n ≤ usizeMax) : fetchSub n + 1 = n := by
  obtain ⟨k, rfl⟩ := Nat.exists_eq_add_of_le' pos
  rw [fetchSub_succ le]

/-- A thread only tries to replace a value that is no marker. -/
def Pc.Ok : Pc → Prop
  | .exchange cur => ∀ marker : Marker, cur ≠ marker.value
  | _ => True

theorem ThreadStep.ok (step : ThreadStep m t m' t' spawned) :
    t'.Ok ∧ ∀ u ∈ spawned, u.Ok := by
  cases step with
  | load hload => exact ⟨hload, by simp⟩
  | reserve hlive hreserve => exact ⟨trivial, List.forall_mem_singleton.mpr trivial⟩
  | _ => exact ⟨trivial, by simp⟩

/-- A thread's step keeps the word. -/
theorem ThreadStep.word (step : ThreadStep m t m' t' spawned) (ok : t.Ok)
    (inv : Word m.runState (t.census + rest))
    (bound : (t.census + rest) .ordinary < usizeMax - 1) :
    Word m'.runState (t'.census + Pool.tally Pc.census spawned + rest) := by
  cases step with
  | @exchanged cur hcur =>
      -- The value read was no marker, and the word has it again.
      obtain ⟨-, hnone⟩ := inv.of_value (hcur ▸ ok)
      refine inv.count hnone (fun marker => by simp [Pc.part?]) fun hcount => ?_
      rw [hcur] at hcount
      simp [Pc.part?] at hcount ⊢
      omega
  | @claimed marker hzero =>
      obtain ⟨hcount, hnone⟩ := inv.of_value fun marker h => by
        have := marker.value_pos
        omega
      rw [hzero] at hcount
      refine .exclusive marker ?_ ?_ (fun other hother => ?_) rfl
      · simpa [Pc.part?] using hcount.symm
      · simpa [Pc.part?] using hnone marker
      · simpa [Pc.part?, hother.symm] using hnone other
  | granted hidle => exact inv.quiet rfl rfl
  | @rollback marker =>
      obtain ⟨-, hzero, hone, hothers⟩ :=
        inv.of_exclusive marker (by simp [Pc.part?])
      refine .ordinary (fun other => ?_) ?_
      · by_cases hother : other = marker
        · subst hother
          simpa [Pc.part?] using hone
        · simpa [Pc.part?, Ne.symm hother] using hothers other hother
      · simpa [Pc.part?] using hzero.symm
  | @drop lease run =>
      obtain ⟨_ | marker⟩ := lease
      · obtain ⟨hcount, hnone⟩ := inv.of_ordinary (by simp [Pc.part?])
        refine inv.count hnone (fun marker => by simp [Pc.part?]) fun _ => ?_
        simp only [Pi.add_apply, census_apply, Pc.part?] at hcount bound
        simp only [Option.isSome_none, hcount]
        simp [Pc.part?] at hcount bound ⊢
        rw [Nat.add_comm]
        exact fetchSub_succ (by omega)
      · obtain ⟨-, hzero, hone, hothers⟩ :=
          inv.of_exclusive marker (by simp [Pc.part?])
        refine .ordinary (fun other => ?_) ?_
        · by_cases hother : other = marker
          · subst hother
            simpa [Pc.part?] using hone
          · simpa [Pc.part?, Ne.symm hother] using hothers other hother
        · simpa [Pc.part?] using hzero.symm
  | reserve hlive hreserve => exact inv.quiet rfl (by funext part; simp [Pc.part?])
  | _ => exact inv.quiet rfl rfl

end Word

end Libdeno.Runs
