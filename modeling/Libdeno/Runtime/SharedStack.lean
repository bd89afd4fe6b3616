import Libdeno.Library.Pool
import Libdeno.Library.Transition

/-!
# Libdeno.Runtime.SharedStack

`shared_for_run`: the resolver stack that the runs on one `LibdenoRuntime` share, rebuilt
by one caller at a time when its inputs changed or `refresh` was called.

The system has any number of callers. Every section under the lock of the runtime's state
is a step, as are the probe of the input manifest, of which nothing is assumed but that it
answers, and the two ends of a build. A build begins with the generation it reads. Callers
are futures and may be dropped while they wait or build.
-/

namespace Libdeno.Runtime

variable {M : Type}

/-! ### The state of a runtime -/

/-- `SharedServices`: the number of its build and its manifest, of any type. -/
structure SharedServices (M : Type) where
  build : Nat
  inputManifest : M
  deriving Repr, DecidableEq

/-- `RuntimeState`. -/
structure RuntimeState (M : Type) where
  inputManifest : M
  shared : SharedServices M
  refreshGeneration : UInt64
  builtGeneration : UInt64
  deriving Repr, DecidableEq

/-- The section of `refresh`. -/
def RuntimeState.refresh (self : RuntimeState M) : RuntimeState M :=
  { self with refreshGeneration := self.refreshGeneration + 1 }

/-- `needs_rebuild`. -/
def needsRebuild (manifestChanged : Bool) (refreshGeneration builtGeneration : UInt64) : Bool :=
  manifestChanged || builtGeneration ≠ refreshGeneration

/-- `singleflight_build_generation`. -/
def singleflightBuildGeneration (manifestChanged : Bool)
    (refreshGeneration builtGeneration : UInt64) : Option UInt64 :=
  if needsRebuild manifestChanged refreshGeneration builtGeneration then some refreshGeneration
  else none

/-- `can_publish`. -/
def canPublish (buildGeneration currentGeneration : UInt64) : Bool :=
  buildGeneration = currentGeneration

/-- The last section of `shared_for_run`. -/
def RuntimeState.publish (self : RuntimeState M) (candidate : SharedServices M)
    (buildGeneration : UInt64) : RuntimeState M :=
  if canPublish buildGeneration self.refreshGeneration then
    { self with
      inputManifest := candidate.inputManifest
      shared := candidate
      builtGeneration := buildGeneration }
  else
    self

/-! ### Callers -/

/-- What is known of a build (history): how often `refresh` was called before it began, the
generation it read then, and the manifest it came to. -/
structure Build (M : Type) where
  began : Nat
  generation : UInt64
  inputManifest : Option M

/-- What the callers share: the state and whether `rebuild_lock` is taken. History: how
often `refresh` was called, how many builds began, and what is known of each. -/
structure Memory (M : Type) where
  state : RuntimeState M
  rebuildLock : Bool
  refreshes : Nat
  begun : Nat
  builds : Nat → Build M

/-- `LibdenoRuntime::new`, with the stack of its own build. -/
def Memory.new (inputManifest : M) : Memory M where
  state :=
    { inputManifest
      shared := { build := 0, inputManifest }
      refreshGeneration := 0
      builtGeneration := 0 }
  rebuildLock := false
  refreshes := 0
  begun := 1
  builds := fun _ => { began := 0, generation := 0, inputManifest := some inputManifest }

/-- Where a caller of `shared_for_run` stands. -/
inductive Pc (M : Type)
  | call
  /-- The first section is over, and the manifest it read is probed. -/
  | probing (refreshGeneration builtGeneration : UInt64) (shared : SharedServices M)
  | gate
  /-- `rebuild_lock` is taken. -/
  | gated
  /-- The same after the second section, with how often `refresh` was called before. -/
  | reprobing (refreshes : Nat) (refreshGeneration builtGeneration : UInt64)
  | reuse
  | building (build : Nat) (buildGeneration : UInt64)
  | built (candidate : SharedServices M) (buildGeneration : UInt64)
  /-- Before `rebuild_lock` is given back. -/
  | leaving (result : Option (SharedServices M))
  | returned (result : Option (SharedServices M))

/-- The caller has `rebuild_lock`. -/
def Pc.holds : Pc M → Bool
  | .gated | .reprobing _ _ _ | .reuse | .building _ _ | .built _ _ | .leaving _ => true
  | _ => false

/-- A caller, with how often `refresh` had returned when it called (history). -/
structure Caller (M : Type) where
  called : Nat
  pc : Pc M

/-- One step of `shared_for_run`. -/
inductive PcStep (m : Memory M) : Pc M → Memory M → Pc M → Prop
  | read :
      PcStep m .call m
        (.probing m.state.refreshGeneration m.state.builtGeneration m.state.shared)
  | reusable {refreshGeneration builtGeneration : UInt64} {shared : SharedServices M}
      (probeChanged : Bool) :
      singleflightBuildGeneration probeChanged refreshGeneration builtGeneration = none →
      PcStep m (.probing refreshGeneration builtGeneration shared) m (.returned (some shared))
  | stale {refreshGeneration builtGeneration buildGeneration : UInt64}
      {shared : SharedServices M} (probeChanged : Bool) :
      singleflightBuildGeneration probeChanged refreshGeneration builtGeneration =
        some buildGeneration →
      PcStep m (.probing refreshGeneration builtGeneration shared) m .gate
  | lock : m.rebuildLock = false → PcStep m .gate { m with rebuildLock := true } .gated
  | reread :
      PcStep m .gated m
        (.reprobing m.refreshes m.state.refreshGeneration m.state.builtGeneration)
  | coalesced {refreshes : Nat} {refreshGeneration builtGeneration : UInt64}
      (probeChanged : Bool) :
      singleflightBuildGeneration probeChanged refreshGeneration builtGeneration = none →
      PcStep m (.reprobing refreshes refreshGeneration builtGeneration) m .reuse
  | reuse : PcStep m .reuse m (.leaving (some m.state.shared))
  /-- The build begins, and counts from when its generation was read. -/
  | begin {refreshes : Nat} {refreshGeneration builtGeneration buildGeneration : UInt64}
      (probeChanged : Bool) :
      singleflightBuildGeneration probeChanged refreshGeneration builtGeneration =
        some buildGeneration →
      PcStep m (.reprobing refreshes refreshGeneration builtGeneration)
        { m with
          begun := m.begun + 1
          builds := Function.update m.builds m.begun
            { began := refreshes, generation := buildGeneration, inputManifest := none } }
        (.building m.begun buildGeneration)
  | completed {build : Nat} {buildGeneration : UInt64} (inputManifest : M) :
      PcStep m (.building build buildGeneration)
        { m with
          builds := Function.update m.builds build
            { m.builds build with inputManifest := some inputManifest } }
        (.built { build, inputManifest } buildGeneration)
  | fails {build : Nat} {buildGeneration : UInt64} :
      PcStep m (.building build buildGeneration) m (.leaving none)
  | publish {candidate : SharedServices M} {buildGeneration : UInt64} :
      PcStep m (.built candidate buildGeneration)
        { m with state := m.state.publish candidate buildGeneration } (.leaving (some candidate))
  | unlock {result : Option (SharedServices M)} :
      PcStep m (.leaving result) { m with rebuildLock := false } (.returned result)
  /-- The caller is dropped where it waits. -/
  | dropWaiting : PcStep m .gate m (.returned none)
  | dropBuilding {build : Nat} {buildGeneration : UInt64} :
      PcStep m (.building build buildGeneration) m (.leaving none)

/-- One step of a caller. -/
inductive CallerStep (m : Memory M) : Caller M → Memory M → Caller M → List (Caller M) → Prop
  | pc {called : Nat} {pc pc' : Pc M} {m' : Memory M} :
      PcStep m pc m' pc' → CallerStep m ⟨called, pc⟩ m' ⟨called, pc'⟩ []

/-- `refresh` is called, or `shared_for_run`. -/
inductive CallStep (m : Memory M) : Memory M → List (Caller M) → Prop
  | refresh :
      CallStep m { m with state := m.state.refresh, refreshes := m.refreshes + 1 } []
  | sharedForRun : CallStep m m [⟨m.refreshes, .call⟩]

/-- The runtime and its callers. -/
abbrev System (M : Type) := Pool (Memory M) (Caller M)

/-- One step of the system. -/
def SystemStep : System M → System M → Prop := Pool.Step CallerStep CallStep

/-- A new runtime without callers. -/
def System.Initial (s : System M) : Prop := ∃ inputManifest, s = ⟨.new inputManifest, []⟩

/-- The states a runtime can reach. -/
def RuntimeReachable (s : System M) : Prop := Transition.Reachable System.Initial SystemStep s

/-! ### The state and the build it comes from -/

/-- The stored stack is that of one build, with its manifest and generation. -/
structure FromOneBuild (m : Memory M) : Prop where
  known : m.state.shared.build < m.begun
  shared : (m.builds m.state.shared.build).inputManifest = some m.state.shared.inputManifest
  inputManifest : m.state.inputManifest = m.state.shared.inputManifest
  generation : m.state.builtGeneration = (m.builds m.state.shared.build).generation

/-- How the generations count. -/
structure Generations (m : Memory M) : Prop where
  refresh : m.state.refreshGeneration = UInt64.ofNat m.refreshes
  build : ∀ build < m.begun, (m.builds build).generation = UInt64.ofNat (m.builds build).began ∧
    (m.builds build).began ≤ m.refreshes

/-- The stack of this build is as new as a caller may expect, unless the generations have come
round since it began. -/
def Fresh (m : Memory M) (called build : Nat) : Prop :=
  build < m.begun ∧
    (called ≤ (m.builds build).began ∨ (m.builds build).began + UInt64.size ≤ m.refreshes)

/-- Equal generations are those of equally many calls of `refresh`, unless they have come
round. -/
theorem eq_or_wrapped {a b : Nat} (h : UInt64.ofNat a = UInt64.ofNat b) (le : a ≤ b) :
    a = b ∨ a + UInt64.size ≤ b := by
  have hmod := congrArg UInt64.toNat h
  rw [UInt64.toNat_ofNat', UInt64.toNat_ofNat'] at hmod
  have hsize : UInt64.size = 2 ^ 64 := rfl
  rw [hsize]
  omega

theorem singleflight_none {changed : Bool} {refreshGeneration builtGeneration : UInt64}
    (h : singleflightBuildGeneration changed refreshGeneration builtGeneration = none) :
    refreshGeneration = builtGeneration := by
  unfold singleflightBuildGeneration needsRebuild at h
  split at h
  · cases h
  · next hfresh =>
    simp only [Bool.or_eq_true, decide_eq_true_eq, not_or, not_not] at hfresh
    exact hfresh.2.symm

theorem singleflight_some {changed : Bool}
    {refreshGeneration builtGeneration buildGeneration : UInt64}
    (h : singleflightBuildGeneration changed refreshGeneration builtGeneration =
      some buildGeneration) : buildGeneration = refreshGeneration := by
  unfold singleflightBuildGeneration at h
  split at h
  · exact (Option.some.inj h).symm
  · cases h

/-- What any step does to the history. -/
structure Grows (m m' : Memory M) : Prop where
  refreshes : m.refreshes ≤ m'.refreshes
  begun : m.begun ≤ m'.begun
  builds : ∀ build < m.begun, (m'.builds build).began = (m.builds build).began ∧
    (m'.builds build).generation = (m.builds build).generation

section Steps

variable {m m' : Memory M} {pc pc' : Pc M} {called build : Nat}

theorem Fresh.grows (fresh : Fresh m called build) (grows : Grows m m') : Fresh m' called build := by
  obtain ⟨hknown, hfresh⟩ := fresh
  refine ⟨Nat.lt_of_lt_of_le hknown grows.begun, ?_⟩
  rw [(grows.builds build hknown).1]
  rcases hfresh with h | h
  · exact .inl h
  · exact .inr (Nat.le_trans h grows.refreshes)

theorem PcStep.grows (step : PcStep m pc m' pc') : Grows m m' := by
  cases step with
  | begin changed h =>
      refine ⟨Nat.le_refl _, Nat.le_succ _, fun build hbuild => ?_⟩
      show (Function.update m.builds m.begun _ build).began = _ ∧
        (Function.update m.builds m.begun _ build).generation = _
      rw [Function.update_of_ne (Nat.ne_of_lt hbuild)]
      exact ⟨rfl, rfl⟩
  | @completed number generation inputManifest =>
      refine ⟨Nat.le_refl _, Nat.le_refl _, fun build hbuild => ?_⟩
      show (Function.update m.builds number _ build).began = _ ∧
        (Function.update m.builds number _ build).generation = _
      by_cases hnumber : build = number
      · subst hnumber
        rw [Function.update_self]
        exact ⟨rfl, rfl⟩
      · rw [Function.update_of_ne hnumber]
        exact ⟨rfl, rfl⟩
  | _ => exact ⟨Nat.le_refl _, Nat.le_refl _, fun _ _ => ⟨rfl, rfl⟩⟩

theorem CallStep.grows {spawned : List (Caller M)} (step : CallStep m m' spawned) :
    Grows m m' := by
  cases step with
  | refresh => exact ⟨Nat.le_succ _, Nat.le_refl _, fun _ _ => ⟨rfl, rfl⟩⟩
  | sharedForRun => exact ⟨Nat.le_refl _, Nat.le_refl _, fun _ _ => ⟨rfl, rfl⟩⟩

/-- What a caller knows of the builds. -/
def Caller.Ok (m : Memory M) (t : Caller M) : Prop :=
  t.called ≤ m.refreshes ∧
    match t.pc with
    | .probing refreshGeneration builtGeneration shared =>
        refreshGeneration = builtGeneration → Fresh m t.called shared.build
    | .reprobing refreshes refreshGeneration builtGeneration =>
        t.called ≤ refreshes ∧ refreshes ≤ m.refreshes ∧
          refreshGeneration = UInt64.ofNat refreshes ∧
          (refreshGeneration = builtGeneration → Fresh m t.called m.state.shared.build)
    | .reuse => Fresh m t.called m.state.shared.build
    | .building build generation =>
        build < m.begun ∧ t.called ≤ (m.builds build).began ∧
          (m.builds build).generation = generation ∧ build ≠ m.state.shared.build
    | .built candidate generation =>
        candidate.build < m.begun ∧ t.called ≤ (m.builds candidate.build).began ∧
          (m.builds candidate.build).generation = generation ∧
          (m.builds candidate.build).inputManifest = some candidate.inputManifest
    | .leaving (some shared) | .returned (some shared) => Fresh m t.called shared.build
    | _ => True

/-- A section that finds the generations equal finds a stack that is new enough. -/
theorem fresh_of_equal (from_ : FromOneBuild m) (generations : Generations m)
    (called_le : called ≤ m.refreshes)
    (equal : m.state.refreshGeneration = m.state.builtGeneration) :
    Fresh m called m.state.shared.build := by
  obtain ⟨hgeneration, hbegan⟩ := generations.build _ from_.known
  refine ⟨from_.known, ?_⟩
  have hsame : UInt64.ofNat (m.builds m.state.shared.build).began = UInt64.ofNat m.refreshes := by
    rw [← hgeneration, ← from_.generation, ← equal, generations.refresh]
  rcases eq_or_wrapped hsame hbegan with h | h
  · exact .inl (h ▸ called_le)
  · exact .inr h

theorem PcStep.ok (step : PcStep m pc m' pc') (from_ : FromOneBuild m)
    (generations : Generations m) (inv : Caller.Ok m ⟨called, pc⟩) :
    Caller.Ok m' ⟨called, pc'⟩ := by
  obtain ⟨hcalled, hpc⟩ := inv
  cases step with
  | read => exact ⟨hcalled, fresh_of_equal from_ generations hcalled⟩
  | reusable changed h => exact ⟨hcalled, hpc (singleflight_none h)⟩
  | reread =>
      exact ⟨hcalled, hcalled, Nat.le_refl _, generations.refresh,
        fresh_of_equal from_ generations hcalled⟩
  | coalesced changed h => exact ⟨hcalled, hpc.2.2.2 (singleflight_none h)⟩
  | reuse => exact ⟨hcalled, hpc⟩
  | begin changed h =>
      refine ⟨hcalled, Nat.lt_succ_self _, ?_, ?_, ?_⟩
      · show called ≤ (Function.update m.builds m.begun _ m.begun).began
        rw [Function.update_self]
        exact hpc.1
      · show (Function.update m.builds m.begun _ m.begun).generation = _
        rw [Function.update_self]
      · exact (Nat.ne_of_lt from_.known).symm
  | @completed number generation inputManifest =>
      obtain ⟨hknown, hbegan, hgeneration, -⟩ := hpc
      refine ⟨hcalled, hknown, ?_, ?_, ?_⟩
      · show called ≤ (Function.update m.builds number _ number).began
        rw [Function.update_self]
        exact hbegan
      · show (Function.update m.builds number _ number).generation = _
        rw [Function.update_self]
        exact hgeneration
      · show (Function.update m.builds number _ number).inputManifest = _
        rw [Function.update_self]
  | publish =>
      obtain ⟨hknown, hbegan, -, -⟩ := hpc
      exact ⟨hcalled, hknown, .inl hbegan⟩
  | @unlock result =>
      cases result with
      | none => exact ⟨hcalled, trivial⟩
      | some shared => exact ⟨hcalled, hpc⟩
  | _ => exact ⟨hcalled, trivial⟩

/-- A caller that does not hold `rebuild_lock` changes neither the stored stack nor a
build. -/
theorem PcStep.unlocked (step : PcStep m pc m' pc') (free : pc.holds = false) :
    m'.state = m.state ∧ m'.refreshes = m.refreshes ∧ m'.begun = m.begun ∧
      m'.builds = m.builds := by
  cases step with
  | read | reusable | stale | lock | dropWaiting => exact ⟨rfl, rfl, rfl, rfl⟩
  | _ => cases free

/-- What a caller knows stays so when another one moves. -/
theorem PcStep.ok_stable {u : Caller M} (step : PcStep m pc m' pc')
    (exclusive : u.pc.holds = true → pc.holds = false) (inv : Caller.Ok m u) :
    Caller.Ok m' u := by
  obtain ⟨number, upc⟩ := u
  obtain ⟨hcalled, hpc⟩ := inv
  have hgrows := step.grows
  have hcalled' := Nat.le_trans hcalled hgrows.refreshes
  cases hholds : upc.holds with
  | true =>
      obtain ⟨hstate, hrefreshes, hbegun, hbuilds⟩ := step.unlocked (exclusive hholds)
      unfold Caller.Ok Fresh at *
      dsimp only at hpc ⊢
      rw [hstate, hrefreshes, hbegun, hbuilds]
      exact ⟨hcalled, hpc⟩
  | false =>
      cases upc with
      | probing refreshGeneration builtGeneration shared =>
          exact ⟨hcalled', fun h => (hpc h).grows hgrows⟩
      | returned result =>
          cases result with
          | none => exact ⟨hcalled', trivial⟩
          | some shared => exact ⟨hcalled', Fresh.grows hpc hgrows⟩
      | call | gate => exact ⟨hcalled', trivial⟩
      | _ => cases hholds

theorem PcStep.fromOneBuild (step : PcStep m pc m' pc') (inv : FromOneBuild m)
    (ok : Caller.Ok m ⟨called, pc⟩) : FromOneBuild m' := by
  obtain ⟨hknown, hshared, hmanifest, hgeneration⟩ := inv
  cases step with
  | begin changed h =>
      refine ⟨Nat.lt_succ_of_lt hknown, ?_, hmanifest, ?_⟩
      · show (Function.update m.builds m.begun _ m.state.shared.build).inputManifest = _
        rw [Function.update_of_ne (Nat.ne_of_lt hknown)]
        exact hshared
      · show _ = (Function.update m.builds m.begun _ m.state.shared.build).generation
        rw [Function.update_of_ne (Nat.ne_of_lt hknown)]
        exact hgeneration
  | @completed number generation inputManifest =>
      -- The stored stack's own build is over.
      obtain ⟨-, -, -, -, hother⟩ := ok
      refine ⟨hknown, ?_, hmanifest, ?_⟩
      · show (Function.update m.builds number _ m.state.shared.build).inputManifest = _
        rw [Function.update_of_ne hother.symm]
        exact hshared
      · show _ = (Function.update m.builds number _ m.state.shared.build).generation
        rw [Function.update_of_ne hother.symm]
        exact hgeneration
  | @publish candidate buildGeneration =>
      obtain ⟨-, hbuild, -, hread, hcandidate⟩ := ok
      unfold RuntimeState.publish
      split
      · exact ⟨hbuild, hcandidate, rfl, hread.symm⟩
      · exact ⟨hknown, hshared, hmanifest, hgeneration⟩
  | _ => exact ⟨hknown, hshared, hmanifest, hgeneration⟩

theorem PcStep.generations (step : PcStep m pc m' pc') (inv : Generations m)
    (ok : Caller.Ok m ⟨called, pc⟩) : Generations m' := by
  obtain ⟨hrefresh, hbuild⟩ := inv
  cases step with
  | @begin refreshes refreshGeneration builtGeneration buildGeneration changed h =>
      obtain ⟨-, -, hle, hread, -⟩ := ok
      refine ⟨hrefresh, fun build hlt => ?_⟩
      show (Function.update m.builds m.begun _ build).generation =
        UInt64.ofNat (Function.update m.builds m.begun _ build).began ∧
        (Function.update m.builds m.begun _ build).began ≤ m.refreshes
      by_cases hnew : build = m.begun
      · subst hnew
        rw [Function.update_self]
        exact ⟨(singleflight_some h).trans hread, hle⟩
      · rw [Function.update_of_ne hnew]
        exact hbuild build (Nat.lt_of_le_of_ne (Nat.le_of_lt_succ hlt) hnew)
  | @completed number generation inputManifest =>
      refine ⟨hrefresh, fun build hlt => ?_⟩
      show (Function.update m.builds number _ build).generation =
        UInt64.ofNat (Function.update m.builds number _ build).began ∧
        (Function.update m.builds number _ build).began ≤ m.refreshes
      by_cases hnumber : build = number
      · subst hnumber
        rw [Function.update_self]
        exact hbuild build hlt
      · rw [Function.update_of_ne hnumber]
        exact hbuild build hlt
  | publish =>
      unfold RuntimeState.publish
      split <;> exact ⟨hrefresh, hbuild⟩
  | _ => exact ⟨hrefresh, hbuild⟩

/-- The lock is taken by whoever holds it. -/
theorem PcStep.lock_count {rest : Nat} (step : PcStep m pc m' pc')
    (inv : pc.holds.toNat + rest = m.rebuildLock.toNat) :
    pc'.holds.toNat + rest = m'.rebuildLock.toNat := by
  cases step with
  | lock hfree =>
      rw [hfree] at inv
      show 1 + rest = 1
      have hrest : 0 + rest = 0 := inv
      omega
  | unlock =>
      have hrest : 1 + rest = m.rebuildLock.toNat := inv
      have hle := Bool.toNat_le m.rebuildLock
      show 0 + rest = 0
      omega
  | _ => exact inv

end Steps

/-! ### The system -/

/-- What holds in every state of a run. -/
structure Consistent (s : System M) : Prop where
  fromOneBuild : FromOneBuild s.memory
  generations : Generations s.memory
  lock : Pool.tally (fun t => t.pc.holds.toNat) s.threads = s.memory.rebuildLock.toNat
  ok : ∀ t ∈ s.threads, t.Ok s.memory

theorem Consistent.initial {s : System M} (h : s.Initial) : Consistent s := by
  obtain ⟨inputManifest, rfl⟩ := h
  refine ⟨⟨Nat.zero_lt_one, rfl, rfl, rfl⟩, ⟨rfl, fun build _ => ⟨rfl, Nat.le_refl _⟩⟩, rfl, ?_⟩
  intro t ht
  cases ht

theorem ofNat_succ (n : Nat) : UInt64.ofNat (n + 1) = UInt64.ofNat n + 1 := by
  apply UInt64.toNat_inj.mp
  rw [UInt64.toNat_add, UInt64.toNat_ofNat', UInt64.toNat_ofNat']
  show (n + 1) % 2 ^ 64 = (n % 2 ^ 64 + 1) % 2 ^ 64
  omega

/-- A call of `refresh` or `shared_for_run` keeps what the callers know. -/
theorem CallStep.ok {m m' : Memory M} {spawned : List (Caller M)} (step : CallStep m m' spawned) :
    (∀ u : Caller M, u.Ok m → u.Ok m') ∧ ∀ u ∈ spawned, u.Ok m' := by
  cases step with
  | refresh =>
      refine ⟨fun u inv => ?_, by simp⟩
      obtain ⟨called, pc⟩ := u
      obtain ⟨hcalled, hpc⟩ := inv
      have hgrows := (CallStep.refresh (m := m)).grows
      have hcalled' := Nat.le_trans hcalled hgrows.refreshes
      cases pc with
      | probing refreshGeneration builtGeneration shared =>
          exact ⟨hcalled', fun h => (hpc h).grows hgrows⟩
      | reprobing refreshes refreshGeneration builtGeneration =>
          obtain ⟨hle, hread, hgeneration, hfresh⟩ := hpc
          exact ⟨hcalled', hle, Nat.le_succ_of_le hread, hgeneration,
            fun h => (hfresh h).grows hgrows⟩
      | reuse => exact ⟨hcalled', Fresh.grows hpc hgrows⟩
      | leaving result =>
          cases result with
          | none => exact ⟨hcalled', trivial⟩
          | some shared => exact ⟨hcalled', Fresh.grows hpc hgrows⟩
      | returned result =>
          cases result with
          | none => exact ⟨hcalled', trivial⟩
          | some shared => exact ⟨hcalled', Fresh.grows hpc hgrows⟩
      | _ => exact ⟨hcalled', hpc⟩
  | sharedForRun =>
      exact ⟨fun u inv => inv, List.forall_mem_singleton.mpr ⟨Nat.le_refl _, trivial⟩⟩

theorem SystemStep.consistent {s s' : System M} (step : SystemStep s s') (inv : Consistent s) :
    Consistent s' := by
  obtain ⟨hbuild, hgenerations, hlock, hok⟩ := inv
  refine ⟨?_, ?_, ?_, ?_⟩
  · cases step with
    | thread before after h =>
        cases h with
        | pc h => exact h.fromOneBuild hbuild (hok _ (List.mem_append_right _ List.mem_cons_self))
    | environment threads h =>
        cases h with
        | refresh => exact ⟨hbuild.known, hbuild.shared, hbuild.inputManifest, hbuild.generation⟩
        | sharedForRun => exact hbuild
  · cases step with
    | thread before after h =>
        cases h with
        | pc h => exact h.generations hgenerations (hok _ (List.mem_append_right _ List.mem_cons_self))
    | @environment m m' spawned threads h =>
        cases h with
        | refresh =>
            refine ⟨?_, fun build hlt => ?_⟩
            · show m.state.refreshGeneration + 1 = UInt64.ofNat (m.refreshes + 1)
              rw [ofNat_succ, ← hgenerations.refresh]
            · obtain ⟨hread, hle⟩ := hgenerations.build build hlt
              exact ⟨hread, Nat.le_succ_of_le hle⟩
        | sharedForRun => exact hgenerations
  · refine Pool.Step.tally (I := fun m n => n = m.rebuildLock.toNat) (fun rest h inv => ?_)
      (fun rest h inv => ?_) step hlock
    · cases h with
      | pc h => exact h.lock_count inv
    · cases h <;> exact inv
  · refine Pool.Step.threads
      (K := fun s => FromOneBuild s.memory ∧ Generations s.memory ∧
        Pool.tally (fun t => t.pc.holds.toNat) s.threads = s.memory.rebuildLock.toNat)
      (fun known h inv => ?_) (fun {m t m' t' spawned before after u} known hu h _ inv => ?_)
      (fun known h => ?_) step ⟨hbuild, hgenerations, hlock⟩ hok
    · cases h with
      | pc h => exact ⟨h.ok known.1 known.2.1 inv, by simp⟩
    · cases h with
      | @pc called pc pc' m' h =>
          refine h.ok_stable (fun hholds => ?_) inv
          -- If the moving caller held the lock too, the tally would be two.
          have htally := known.2.2
          rw [Pool.tally_split] at htally
          have hother := Pool.le_tally (f := fun t : Caller M => t.pc.holds.toNat) hu
          have hle := Bool.toNat_le m.rebuildLock
          rw [hholds] at hother
          change 1 ≤ _ at hother
          cases hpc : pc.holds with
          | false => rfl
          | true =>
              simp only [hpc, Bool.toNat_true] at htally
              omega
    · exact ⟨fun u _ inv => h.ok.1 u inv, h.ok.2⟩

theorem RuntimeReachable.consistent {s : System M} (h : RuntimeReachable s) : Consistent s :=
  Transition.Reachable.invariant (P := Consistent) (fun _ => .initial)
    (fun _ _ inv step => step.consistent inv) h

/-- The caller builds. -/
def Pc.inProgress : Pc M → Bool
  | .building _ _ => true
  | _ => false

/-- **A fresh stack.** In every state a runtime can reach: a stack that `shared_for_run`
returned is of a build that began after every `refresh` that had returned when it was
called, unless 2^64 calls of `refresh` have come since the build began; the stored stack,
manifest and generation are those of one build; and at most one build is in progress. -/
theorem fresh_shared_stack (s : System M) (reachable : RuntimeReachable s) :
    (∀ t ∈ s.threads, ∀ shared, t.pc = .returned (some shared) →
      s.memory.refreshes < (s.memory.builds shared.build).began + UInt64.size →
      t.called ≤ (s.memory.builds shared.build).began) ∧
    ((s.memory.builds s.memory.state.shared.build).inputManifest =
        some s.memory.state.inputManifest ∧
      s.memory.state.shared.inputManifest = s.memory.state.inputManifest ∧
      (s.memory.builds s.memory.state.shared.build).generation =
        s.memory.state.builtGeneration) ∧
    s.threads.countP (·.pc.inProgress) ≤ 1 := by
  obtain ⟨hbuild, -, hlock, hok⟩ := reachable.consistent
  refine ⟨fun t ht shared hpc hfew => ?_, ⟨?_, hbuild.inputManifest.symm, hbuild.generation.symm⟩,
    ?_⟩
  · obtain ⟨-, hfresh⟩ := hok t ht
    rw [hpc] at hfresh
    rcases hfresh.2 with h | h
    · exact h
    · omega
  · rw [hbuild.inputManifest]
    exact hbuild.shared
  · rw [Pool.tally_toNat] at hlock
    have hle : s.threads.countP (·.pc.inProgress) ≤ s.threads.countP (·.pc.holds) := by
      refine List.countP_mono_left fun t _ h => ?_
      obtain ⟨called, pc⟩ := t
      cases pc with
      | building build generation => rfl
      | _ => cases h
    have hlocked := Bool.toNat_le s.memory.rebuildLock
    omega

/-- A caller that came after one `refresh` and built. -/
def sampleRebuilt : System Unit where
  memory :=
    let stack : SharedServices Unit := { build := 1, inputManifest := () }
    { Memory.new () with
      state :=
        { inputManifest := (), shared := stack, refreshGeneration := 1, builtGeneration := 1 }
      refreshes := 1
      begun := 2
      builds :=
        Function.update
          (Function.update (Memory.new ()).builds 1
            { began := 1, generation := 1, inputManifest := none })
          1 { began := 1, generation := 1, inputManifest := some () } }
  threads := [⟨1, .returned (some { build := 1, inputManifest := () })⟩]

theorem sampleRebuilt_reachable : RuntimeReachable sampleRebuilt := by
  refine ⟨⟨.new (), []⟩, ⟨(), rfl⟩, ?_⟩
  refine .head (.environment [] .refresh) ?_
  refine .head (.environment [] .sharedForRun) ?_
  refine .head (.thread [] [] (.pc .read)) ?_
  refine .head (.thread [] [] (.pc (.stale false rfl))) ?_
  refine .head (.thread [] [] (.pc (.lock rfl))) ?_
  refine .head (.thread [] [] (.pc .reread)) ?_
  refine .head (.thread [] [] (.pc (.begin false rfl))) ?_
  refine .head (.thread [] [] (.pc (.completed ()))) ?_
  refine .head (.thread [] [] (.pc .publish)) ?_
  exact .head (.thread [] [] (.pc .unlock)) .refl

/-- The sample's caller has a stack that was built after the `refresh`. -/
theorem fresh_shared_stack_rebuilt :
    1 ≤ (sampleRebuilt.memory.builds 1).began ∧
      (sampleRebuilt.memory.builds 1).inputManifest = some sampleRebuilt.memory.state.inputManifest := by
  obtain ⟨hfresh, ⟨hmanifest, -, -⟩, -⟩ := fresh_shared_stack sampleRebuilt sampleRebuilt_reachable
  exact ⟨hfresh _ (List.mem_singleton.mpr rfl) _ rfl (by decide), hmanifest⟩

/-- A runtime after `n` calls of `refresh`. -/
def refreshed (n : Nat) : Memory Unit :=
  { Memory.new () with
    state := { (Memory.new ()).state with refreshGeneration := UInt64.ofNat n }
    refreshes := n }

theorem refreshed_reachable (n : Nat) : RuntimeReachable ⟨refreshed n, []⟩ := by
  induction n with
  | zero => exact .start ⟨(), rfl⟩
  | succ n ih =>
      have hstep : SystemStep ⟨refreshed n, []⟩ ⟨refreshed (n + 1), []⟩ := by
        have hnext : refreshed (n + 1) =
            { refreshed n with
              state := (refreshed n).state.refresh, refreshes := (refreshed n).refreshes + 1 } := by
          unfold refreshed RuntimeState.refresh
          rw [ofNat_succ]
        rw [hnext]
        exact .environment [] .refresh
      exact ih.snoc hstep

/-- When the generations have come round, the first stack is taken for a new one. -/
theorem refreshed_returns {n : Nat} (h : UInt64.ofNat n = 0) :
    RuntimeReachable ⟨refreshed n,
      [⟨n, .returned (some { build := 0, inputManifest := () })⟩]⟩ := by
  refine (refreshed_reachable n).run ?_
  refine .head (.environment [] .sharedForRun) ?_
  refine .head (.thread [] [] (.pc .read)) ?_
  refine .head (.thread [] [] (.pc (.reusable false ?_))) .refl
  show singleflightBuildGeneration false (UInt64.ofNat n) 0 = none
  rw [h]
  rfl

/-- A caller that came after `refresh` has the stack that was built before. -/
theorem fresh_shared_stack_wrapped :
    ∃ (s : System Unit) (t : Caller Unit) (shared : SharedServices Unit),
      RuntimeReachable s ∧ t ∈ s.threads ∧ t.pc = .returned (some shared) ∧
        (s.memory.builds shared.build).began < t.called := by
  refine ⟨_, _, _, refreshed_returns (n := UInt64.size) rfl, List.mem_singleton.mpr rfl, rfl, ?_⟩
  show 0 < UInt64.size
  decide

end Libdeno.Runtime
