import Mathlib.Algebra.BigOperators.Intervals
import Mathlib.Algebra.Order.BigOperators.Group.Finset
import Libdeno.Runs.RunLease

/-!
# Libdeno.Runs.Exclusive

What an exclusive lease excludes: ordinary leases by the word, and the workers of earlier
runs by the second look at their count. Once a thread has put its marker in the word, nobody
else has a lease; a worker could then only be reserved for another one, and the second
look found none.
-/

namespace Libdeno.Runs

variable {m m' : Memory} {t t' : Pc} {spawned : List Pc} {s s' : System}

/-! ### The count of workers -/

/-- The workers of all runs. -/
def Memory.workers (m : Memory) : Nat :=
  ∑ run ∈ Finset.range m.acquired, (m.registries run).len

/-- The count is that of the registries, and only runs have workers. -/
structure Counted (m : Memory) : Prop where
  count : m.activeWorkers = m.workers
  fresh : ∀ run, m.acquired ≤ run → m.registries run = .new

/-- The run of an actor is known. -/
def Known (m : Memory) (t : Pc) : Prop :=
  ∀ actor, t.actor? = some actor → actor.runId < m.acquired

theorem Known.of_none (h : t.actor? = none) : Known m t := by
  intro actor hactor
  rw [h] at hactor
  cases hactor

theorem ThreadStep.acquired (step : ThreadStep m t m' t' spawned) :
    m.acquired ≤ m'.acquired := by
  cases step with
  | exchanged => exact Nat.le_succ _
  | granted => exact Nat.le_succ _
  | _ => exact Nat.le_refl _

theorem Known.stable (inv : Known m t) (le : m.acquired ≤ m'.acquired) : Known m' t :=
  fun actor h => Nat.lt_of_lt_of_le (inv actor h) le

theorem ThreadStep.known (step : ThreadStep m t m' t' spawned) (inv : Known m t) :
    Known m' t' ∧ ∀ u ∈ spawned, Known m' u := by
  cases step with
  | exchanged hcur =>
      refine ⟨fun actor h => ?_, by simp⟩
      obtain rfl := Option.some.inj h
      exact Nat.lt_succ_self _
  | granted hidle =>
      refine ⟨fun actor h => ?_, by simp⟩
      obtain rfl := Option.some.inj h
      exact Nat.lt_succ_self _
  | close => exact ⟨inv, by simp⟩
  | register workerId => exact ⟨fun actor h => inv actor h, by simp⟩
  | @reserve actor workerId registrationId added state hlive hreserve =>
      refine ⟨fun actor h => inv actor h, List.forall_mem_singleton.mpr fun worker h => ?_⟩
      obtain rfl := Option.some.inj h
      exact inv actor rfl
  | reserveRefused hreserve => exact ⟨fun actor h => inv actor h, by simp⟩
  | _ => exact ⟨.of_none rfl, by simp⟩

theorem workers_setRegistry {run : Nat} (state : RegistryState) (known : run < m.acquired) :
    (m.setRegistry run state).workers + (m.registries run).len = m.workers + state.len := by
  have hmem : run ∈ Finset.range m.acquired := Finset.mem_range.mpr known
  have hbefore := Finset.add_sum_erase (Finset.range m.acquired)
    (fun run => (m.registries run).len) hmem
  have hafter := Finset.add_sum_erase (Finset.range m.acquired)
    (fun r => ((m.setRegistry run state).registries r).len) hmem
  have hothers : ∑ r ∈ (Finset.range m.acquired).erase run,
      ((m.setRegistry run state).registries r).len =
      ∑ r ∈ (Finset.range m.acquired).erase run, (m.registries r).len := by
    refine Finset.sum_congr rfl fun r hr => ?_
    show (Function.update m.registries run state r).len = _
    rw [Function.update_of_ne (Finset.ne_of_mem_erase hr)]
  have hself : ((m.setRegistry run state).registries run).len = state.len := by
    show (Function.update m.registries run state run).len = _
    rw [Function.update_self]
  show ∑ r ∈ Finset.range m.acquired, ((m.setRegistry run state).registries r).len + _ = _
  rw [Memory.workers, ← hbefore, ← hafter, hothers, hself]
  omega

/-- A section of the registry of a known run, with its effect on the count. -/
theorem Counted.section (inv : Counted m) {run : Nat} {state : RegistryState} {count : Nat}
    (known : run < m.acquired)
    (change : count + (m.registries run).len = m.activeWorkers + state.len) :
    Counted { m.setRegistry run state with activeWorkers := count } := by
  refine ⟨?_, fun r hr => ?_⟩
  · have hworkers := workers_setRegistry state known
    have hcount := inv.count
    show count = (m.setRegistry run state).workers
    omega
  · show Function.update m.registries run state r = .new
    have hne : r ≠ run := by
      intro h
      have : m.acquired ≤ r := hr
      omega
    rw [Function.update_of_ne hne]
    exact inv.fresh r hr

/-- One more run, with a new registry. -/
theorem Counted.acquire (inv : Counted m) (runState : Nat) :
    Counted { m with runState, acquired := m.acquired + 1 } := by
  refine ⟨?_, fun run hrun => inv.fresh run (Nat.le_of_succ_le hrun)⟩
  show m.activeWorkers = ∑ run ∈ Finset.range (m.acquired + 1), (m.registries run).len
  rw [Finset.sum_range_succ, inv.fresh m.acquired (Nat.le_refl _), RegistryState.len_new, add_zero]
  exact inv.count

theorem ThreadStep.counted (step : ThreadStep m t m' t' spawned) (known : Known m t)
    (inv : Counted m) : Counted m' := by
  cases step with
  | exchanged hcur => exact inv.acquire _
  | granted hidle => exact inv.acquire _
  | @close lease run =>
      exact inv.section (known _ rfl) (by rw [RegistryState.len_close])
  | @reserve actor workerId registrationId added state hlive hreserve =>
      refine inv.section (known actor rfl) ?_
      rw [RegistryState.len_reserve hreserve]
      omega
  | @unregister run workerId registrationId removed state hunregister =>
      refine inv.section (known (.worker run workerId registrationId) rfl) ?_
      have hlen := RegistryState.len_unregister hunregister
      have hle : (m.registries run).len ≤ m.activeWorkers := by
        rw [inv.count]
        exact Finset.single_le_sum (f := fun r => (m.registries r).len) (fun _ _ => Nat.zero_le _)
          (Finset.mem_range.mpr (known (.worker run workerId registrationId) rfl))
      omega
  | _ => exact ⟨inv.count, inv.fresh⟩

/-- Where no worker is counted there is none. -/
theorem Counted.idle (inv : Counted m) (idle : m.activeWorkers = 0) (run : Nat) :
    (m.registries run).len = 0 := by
  by_cases hrun : run < m.acquired
  · rw [inv.count, Memory.workers, Finset.sum_eq_zero_iff] at idle
    exact idle run (Finset.mem_range.mpr hrun)
  · rw [inv.fresh run (Nat.le_of_not_lt hrun), RegistryState.len_new]

/-! ### Runs -/

/-- The number of the lease a thread holds. -/
def Pc.held (t : Pc) : Multiset Nat :=
  match t.lease? with
  | some (_, run) => {run}
  | none => 0

/-- Each lease is held by one thread, or was dropped. -/
def Numbered (m : Memory) (held : Multiset Nat) : Prop :=
  held + m.ended = Multiset.range m.acquired

/-- Nothing changes for the lease of the thread, and no lease is handed on. -/
theorem Numbered.quiet {rest : Multiset Nat} (inv : Numbered m (t.held + rest))
    (acquired : m'.acquired = m.acquired) (ended : m'.ended = m.ended)
    (same : t'.lease? = t.lease?) (spawns : Pool.tally Pc.held spawned = 0) :
    Numbered m' (t'.held + Pool.tally Pc.held spawned + rest) := by
  unfold Numbered at *
  rw [spawns, add_zero, acquired, ended, Pc.held, same]
  exact inv

theorem Numbered.acquire {rest : Multiset Nat} (inv : Numbered m rest) (runState : Nat)
    (lease : RunLease) :
    Numbered { m with runState, acquired := m.acquired + 1 }
      ((Pc.active (.run lease m.acquired)).held + rest) := by
  show {m.acquired} + rest + ↑m.ended = Multiset.range (m.acquired + 1)
  rw [Multiset.range_succ, ← inv, add_assoc, Multiset.singleton_add]

theorem ThreadStep.numbered {rest : Multiset Nat} (step : ThreadStep m t m' t' spawned)
    (inv : Numbered m (t.held + rest)) :
    Numbered m' (t'.held + Pool.tally Pc.held spawned + rest) := by
  cases step with
  | exchanged hcur =>
      have hrest : Numbered m rest := by simpa [Pc.held, Pc.lease?, Pc.actor?] using inv
      simpa using hrest.acquire _ { exclusiveMarker := none }
  | @granted marker hidle =>
      have hrest : Numbered m rest := by simpa [Pc.held, Pc.lease?, Pc.actor?] using inv
      simpa using hrest.acquire _ { exclusiveMarker := some marker }
  | @drop lease run =>
      show 0 + 0 + rest + (↑(m.ended ++ [run]) : Multiset Nat) = Multiset.range m.acquired
      rw [← inv]
      show 0 + 0 + rest + (↑(m.ended ++ [run]) : Multiset Nat) = {run} + rest + ↑m.ended
      rw [zero_add, zero_add, ← Multiset.coe_add, Multiset.coe_singleton,
        add_comm (m.ended : Multiset Nat), ← add_assoc, add_comm rest]
  | reserve hlive hreserve =>
      exact inv.quiet rfl rfl rfl (by simp [Pc.held, Pc.lease?, Pc.actor?])
  | _ => exact inv.quiet rfl rfl rfl rfl

/-! ### Exclusive leases -/

/-- Beside an exclusive lease only its own run has workers. -/
def Alone (m : Memory) (t : Pc) : Prop :=
  ∀ lease run, t.lease? = some (lease, run) → lease.exclusiveMarker ≠ none →
    ∀ other, other ≠ run → (m.registries other).len = 0

theorem Alone.of_none (h : t.lease? = none) : Alone m t := by
  intro lease run hlease
  rw [h] at hlease
  cases hlease

/-- The registries of a run's others stay as they are, when the run's own changes. -/
theorem Alone.setRegistry {run : Nat} {lease : RunLease} {state : RegistryState}
    (inv : Alone m t) (holds : t.lease? = some (lease, run)) {t' : Pc}
    (same : t'.lease? = t.lease?) {count : Nat} :
    Alone { m.setRegistry run state with activeWorkers := count } t' := by
  intro lease' run' hlease hmarker other hother
  rw [same, holds] at hlease
  obtain ⟨rfl, rfl⟩ := Prod.mk.inj (Option.some.inj hlease)
  show (Function.update m.registries run state other).len = 0
  rw [Function.update_of_ne hother]
  exact inv lease run holds hmarker other hother

theorem ThreadStep.alone (step : ThreadStep m t m' t' spawned) (counted : Counted m)
    (inv : Alone m t) : Alone m' t' ∧ ∀ u ∈ spawned, Alone m' u := by
  cases step with
  | exchanged hcur =>
      refine ⟨fun lease run hlease hmarker => ?_, by simp⟩
      obtain ⟨rfl, rfl⟩ := Prod.mk.inj (Option.some.inj hlease)
      exact absurd rfl hmarker
  | granted hidle =>
      exact ⟨fun lease run hlease hmarker other hother => counted.idle hidle other, by simp⟩
  | close => exact ⟨inv.setRegistry rfl rfl, by simp⟩
  | register workerId => exact ⟨inv, by simp⟩
  | @reserve actor workerId registrationId added state hlive hreserve =>
      refine ⟨?_, List.forall_mem_singleton.mpr (.of_none rfl)⟩
      cases actor with
      | run lease number => exact inv.setRegistry rfl rfl
      | worker number workerId registrationId => exact .of_none rfl
  | reserveRefused hreserve => exact ⟨inv, by simp⟩
  | _ => exact ⟨.of_none rfl, by simp⟩

theorem part?_of_lease {lease : RunLease} {run : Nat} (h : t.lease? = some (lease, run)) :
    t.part? = some lease.part := by
  cases t with
  | active actor =>
      change actor.lease? = some (lease, run) at h
      rw [Pc.part?, h]
      rfl
  | reserving actor workerId registrationId =>
      change actor.lease? = some (lease, run) at h
      rw [Pc.part?, h]
      rfl
  | _ => cases h

/-- Nobody else has a part in the word beside an exclusive one. -/
theorem Word.alone {runState : Nat} {n : Part → ℕ} {marker : Marker}
    (inv : Word runState (t.census + n)) (exclusive : 0 < n (.exclusive marker)) :
    t.part? = none := by
  obtain ⟨-, hzero, hone, hothers⟩ :=
    inv.of_exclusive marker (Nat.add_pos_right _ exclusive)
  cases hpart : t.part? with
  | none => rfl
  | some part =>
      cases part with
      | ordinary => simp [hpart] at hzero
      | exclusive other =>
          by_cases hother : other = marker
          · subst hother
            simp [hpart] at hone
            omega
          · have hnone := hothers other hother
            simp [hpart] at hnone

/-- The step of another thread lets no worker of another run appear. -/
theorem ThreadStep.alone_stable {u : Pc} {n : Part → ℕ}
    (step : ThreadStep m t m' t' spawned) (word : Word m.runState (t.census + n))
    (counts : ∀ part, u.part? = some part → 0 < n part) (inv : Alone m u) : Alone m' u := by
  intro lease run hlease hmarker other hother
  have hempty := inv lease run hlease hmarker
  have hpart : t.part? = none := by
    obtain ⟨_ | marker⟩ := lease
    · exact absurd rfl hmarker
    · exact word.alone (counts _ (part?_of_lease hlease))
  cases step with
  | close => cases hpart
  | @reserve actor workerId registrationId added state hlive hreserve =>
      cases actor with
      | run lease' number => cases hpart
      | worker number id registration =>
          -- A live worker is one of the run that has the lease.
          have hrun : number = run := by
            by_contra hne
            have := RegistryState.len_pos_of_registered hlive
            have := hempty number hne
            omega
          subst hrun
          show (Function.update m.registries number state other).len = 0
          rw [Function.update_of_ne hother]
          exact hempty other hother
  | @unregister number workerId registrationId removed state hunregister =>
      show (Function.update m.registries number state other).len = 0
      by_cases hnumber : other = number
      · subst hnumber
        rw [Function.update_self]
        have hlen := RegistryState.len_unregister hunregister
        have := hempty other hother
        omega
      · rw [Function.update_of_ne hnumber]
        exact hempty other hother
  | _ => exact hempty other hother

/-! ### Runs of the system -/

/-- What holds in every state of a run. -/
structure Consistent (s : System) : Prop where
  bounded : Bounded s
  word : Word s.memory.runState (Pool.tally Pc.census s.threads)
  ok : ∀ t ∈ s.threads, t.Ok
  known : ∀ t ∈ s.threads, Known s.memory t
  counted : Counted s.memory
  numbered : Numbered s.memory (Pool.tally Pc.held s.threads)
  alone : ∀ t ∈ s.threads, Alone s.memory t

theorem Consistent.initial : Consistent .initial where
  bounded := (by decide : 0 < usizeMax - 1)
  word := .ordinary (fun _ => rfl) rfl
  ok := fun t ht => by cases ht
  known := fun t ht => by cases ht
  counted := ⟨rfl, fun _ _ => rfl⟩
  numbered := rfl
  alone := fun t ht => by cases ht

/-- A thread that has just arrived. -/
theorem CallStep.arrives (step : CallStep m m' spawned) :
    m' = m ∧ ∃ u : Pc, spawned = [u] ∧ u.Ok ∧ u.actor? = none ∧ u.part? = none := by
  cases step with
  | acquire captured =>
      cases captured with
      | false => exact ⟨rfl, .load, rfl, trivial, rfl, rfl⟩
      | true => exact ⟨rfl, .exclusive .capture, rfl, trivial, rfl, rfl⟩
  | acquireBrokerInstall => exact ⟨rfl, .exclusive .brokerInstall, rfl, trivial, rfl, rfl⟩

theorem lease?_of_actor? (h : t.actor? = none) : t.lease? = none := by
  rw [Pc.lease?, h]
  rfl

theorem census_of_part? (h : t.part? = none) : t.census = 0 := by
  funext part
  rw [census_apply, h]
  rfl

theorem held_of_actor? (h : t.actor? = none) : t.held = 0 := by
  rw [Pc.held, lease?_of_actor? h]

/-- The other threads' contributions, one of which is `u`'s. -/
theorem census_pos {threads : List Pc} {u : Pc} (hu : u ∈ threads) {part : Part}
    (h : u.part? = some part) : 0 < Pool.tally Pc.census threads part := by
  rw [Pc.census, Pool.tally_census, List.countP_pos_iff]
  exact ⟨u, hu, by simp [h]⟩

theorem LeaseStep.consistent (step : LeaseStep s s') (inv : Consistent s) : Consistent s' := by
  obtain ⟨step, hbounded⟩ := step
  refine ⟨hbounded, ?_, ?_, ?_, ?_, ?_, ?_⟩
  · have hword := inv.word
    have hbound := inv.bounded
    rw [Bounded, live_eq] at hbound
    cases step with
    | @thread m m' t t' spawned before after h =>
        simp only [Pool.tally_step, Pool.tally_split] at hword hbound ⊢
        exact h.word (inv.ok t (by simp)) hword hbound
    | environment threads h =>
        obtain ⟨rfl, u, rfl, -, -, hpart⟩ := h.arrives
        rw [Pool.tally_append, Pool.tally_cons, census_of_part? hpart]
        exact hword
  · refine Pool.Step.threads (K := fun _ => True) (P := fun _ t => t.Ok) (fun _ h _ => h.ok)
      (fun _ _ _ _ hu => hu) (fun _ h => ?_) step trivial inv.ok
    obtain ⟨-, u, rfl, hu, -, -⟩ := h.arrives
    exact ⟨fun _ _ hu => hu, List.forall_mem_singleton.mpr hu⟩
  · refine Pool.Step.threads (K := fun _ => True) (fun _ h inv => h.known inv)
      (fun _ _ h _ inv => inv.stable h.acquired) (fun _ h => ?_) step trivial inv.known
    obtain ⟨rfl, u, rfl, -, hactor, -⟩ := h.arrives
    exact ⟨fun _ _ inv => inv, List.forall_mem_singleton.mpr (.of_none hactor)⟩
  · have hknown := inv.known
    have hcounted := inv.counted
    cases step with
    | @thread m m' t t' spawned before after h => exact h.counted (hknown t (by simp)) hcounted
    | environment threads h =>
        obtain ⟨rfl, -⟩ := h.arrives
        exact hcounted
  · refine Pool.Step.tally (I := Numbered) (fun rest h inv => h.numbered inv)
      (fun rest h inv => ?_) step inv.numbered
    obtain ⟨rfl, u, rfl, -, hactor, -⟩ := h.arrives
    rw [Pool.tally_cons, Pool.tally_nil, held_of_actor? hactor, add_zero, add_zero]
    exact inv
  · refine Pool.Step.threads
      (K := fun s => Counted s.memory ∧ Word s.memory.runState (Pool.tally Pc.census s.threads))
      (fun known h inv => h.alone known.1 inv) (fun known hu h _ inv => ?_) (fun _ h => ?_) step
      ⟨inv.counted, inv.word⟩ inv.alone
    · have hword := known.2
      simp only [Pool.tally_split] at hword
      exact h.alone_stable hword (fun part hpart => census_pos hu hpart) inv
    · obtain ⟨rfl, u, rfl, -, hactor, -⟩ := h.arrives
      exact ⟨fun _ _ inv => inv, List.forall_mem_singleton.mpr (.of_none (lease?_of_actor? hactor))⟩

theorem Run.consistent (run : Transition.Run LeaseStep System.initial s) : Consistent s :=
  Transition.Run.invariant (P := Consistent) (fun _ _ inv step => LeaseStep.consistent step inv) run
    .initial

/-! ### Exclusivity -/

/-- The other threads of a pool whose word is some exclusive part. -/
theorem no_other_part {before after : List Pc} {runState : Nat}
    (word : Word runState (Pool.tally Pc.census (before ++ t :: after))) {marker : Marker}
    (h : t.part? = some (.exclusive marker)) : ∀ u ∈ before ++ after, u.part? = none := by
  rw [Pool.tally_split] at word
  obtain ⟨-, hzero, hone, hothers⟩ := word.of_exclusive marker (by simp [h])
  intro u hu
  cases hpart : u.part? with
  | none => rfl
  | some part =>
      have hpos := census_pos hu hpart
      cases part with
      | ordinary =>
          simp only [Pi.add_apply] at hzero
          omega
      | exclusive other =>
          by_cases hother : other = marker
          · subst hother
            rw [Pi.add_apply, census_apply, h, if_pos rfl] at hone
            omega
          · have hnone := hothers other hother
            simp only [Pi.add_apply] at hnone
            omega

/-- An acquisition that fails leaves the word as it found it. -/
theorem ThreadStep.failed {before after : List Pc} {error : Supervisor.LibdenoError}
    (step : ThreadStep m t m' (.failed error) spawned)
    (word : Word m.runState (Pool.tally Pc.census (before ++ t :: after))) :
    t.part? = none ∧ m'.runState = m.runState ∨
      ∃ marker, t = .rollback marker ∧ m.runState = marker.value ∧ m'.runState = 0 ∧
        ∀ u ∈ before ++ after, u.part? = none := by
  cases step with
  | @rollback marker =>
      refine .inr ⟨marker, rfl, ?_, rfl, no_other_part word rfl⟩
      rw [Pool.tally_split] at word
      exact (word.of_exclusive marker (by simp [Pc.part?])).1
  | _ => exact .inl ⟨rfl, rfl⟩

/-- A lease that is dropped takes its own part out of the word. -/
theorem ThreadStep.dropped {before after : List Pc} {lease : RunLease} {run : Nat}
    (step : ThreadStep m (.active (.run lease run)) m' .done spawned)
    (word : Word m.runState (Pool.tally Pc.census (before ++ .active (.run lease run) :: after)))
    (bound : Pool.tally Pc.census (before ++ .active (.run lease run) :: after) .ordinary <
      usizeMax - 1) :
    (lease.exclusiveMarker = none →
      m.runState = Pool.tally Pc.census (before ++ .active (.run lease run) :: after) .ordinary ∧
        m'.runState + 1 = m.runState) ∧
    ∀ marker, lease.exclusiveMarker = some marker →
      m.runState = marker.value ∧ m'.runState = 0 ∧ ∀ u ∈ before ++ after, u.part? = none := by
  obtain ⟨_ | marker⟩ := lease
  · refine ⟨fun _ => ?_, fun marker h => by cases h⟩
    have hpos : 0 < Pool.tally Pc.census
        (before ++ .active (.run { exclusiveMarker := none } run) :: after) .ordinary :=
      census_pos (List.mem_append_right _ List.mem_cons_self) rfl
    have hcount := (word.of_ordinary hpos).1
    refine ⟨hcount, ?_⟩
    cases step with
    | drop =>
        rw [← hcount] at hpos bound
        show (if (none : Option Marker).isSome = true then 0 else fetchSub m.runState) + 1 = _
        rw [Option.isSome_none, if_neg Bool.false_ne_true]
        exact fetchSub_add_one hpos (Nat.le_of_lt (Nat.lt_of_lt_of_le bound (Nat.sub_le _ _)))
  · refine ⟨fun h => (nomatch h), fun own h => ?_⟩
    obtain rfl := Option.some.inj h
    have hpos : 0 < Pool.tally Pc.census
        (before ++ .active (.run { exclusiveMarker := some marker } run) :: after)
        (.exclusive marker) :=
      census_pos (List.mem_append_right _ List.mem_cons_self) rfl
    refine ⟨(word.of_exclusive _ hpos).1, ?_, no_other_part word rfl⟩
    cases step with
    | drop => rfl

/-- **Exclusivity of the lease.** In every state of every run of the system, the word is
the number of the live ordinary leases, with no exclusive one, or one marker, with one
thread that acquires, holds or gives back this exclusive lease, and no ordinary one; an
acquisition that fails leaves the word as it found it; a lease that is dropped takes out of
the word what is its own; and while an exclusive lease is held, no worker of an ended run
is live. -/
theorem run_lease_exclusive (s : System) (run : Transition.Run LeaseStep System.initial s) :
    (((∀ marker, s.live (.exclusive marker) = 0) ∧ s.memory.runState = s.live .ordinary) ∨
      ∃ marker, s.memory.runState = marker.value ∧ s.live (.exclusive marker) = 1 ∧
        (∀ other, other ≠ marker → s.live (.exclusive other) = 0) ∧ s.live .ordinary = 0) ∧
    (∀ before t after m' t' spawned, s.threads = before ++ t :: after →
      ThreadStep s.memory t m' t' spawned →
      (∀ error, t' = .failed error →
        (t.part? = none ∧ m'.runState = s.memory.runState) ∨
          ∃ marker, t = .rollback marker ∧ s.memory.runState = marker.value ∧
            m'.runState = 0 ∧ ∀ u ∈ before ++ after, u.part? = none) ∧
      ∀ lease number, t = .active (.run lease number) → t' = .done →
        (lease.exclusiveMarker = none →
          s.memory.runState = s.live .ordinary ∧ m'.runState + 1 = s.memory.runState) ∧
        ∀ marker, lease.exclusiveMarker = some marker →
          s.memory.runState = marker.value ∧ m'.runState = 0 ∧
            ∀ u ∈ before ++ after, u.part? = none) ∧
    ∀ t ∈ s.threads, ∀ lease number, t.lease? = some (lease, number) →
      lease.exclusiveMarker ≠ none →
      ∀ earlier ∈ s.memory.ended, ∀ workerId,
        (s.memory.registries earlier).workers.lookup workerId = none := by
  have inv := Run.consistent run
  have hbound := inv.bounded
  simp only [Bounded, live_eq] at hbound ⊢
  refine ⟨?_, ?_, ?_⟩
  · cases inv.word with
    | ordinary hnone hcount => exact .inl ⟨hnone, hcount⟩
    | exclusive marker hzero hone hothers hvalue =>
        exact .inr ⟨marker, hvalue, hone, hothers, hzero⟩
  · intro before t after m' t' spawned hthreads step
    have hword := inv.word
    rw [hthreads] at hword hbound ⊢
    refine ⟨fun error h => ?_, fun lease number h h' => ?_⟩
    · subst h
      exact step.failed hword
    · subst h h'
      exact step.dropped hword hbound
  · intro t ht lease number hlease hmarker earlier hearlier workerId
    have hne : earlier ≠ number := by
      rintro rfl
      -- A lease is held or was dropped, not both.
      have hnodup := inv.numbered ▸ Multiset.nodup_range s.memory.acquired
      have hheld : earlier ∈ Pool.tally Pc.held s.threads := by
        refine Pool.mem_tally.mpr ⟨t, ht, ?_⟩
        rw [Pc.held, hlease]
        exact Multiset.mem_singleton_self _
      exact (Multiset.disjoint_left.mp (Multiset.nodup_add.mp hnodup).2.2) hheld
        (Multiset.mem_coe.mpr hearlier)
    have hempty := inv.alone t ht lease number hlease hmarker earlier hne
    refine Finmap.lookup_eq_none.mpr fun hmem => ?_
    have hkeys := Finset.card_eq_zero.mp hempty
    exact absurd (Finmap.mem_keys.mpr hmem) (by rw [hkeys]; exact Finset.notMem_empty _)

/-- A run has ended, and a capture holds the lease. -/
def sampleCapture : System where
  memory :=
    { Memory.initial with
      runState := Marker.capture.value
      acquired := 2
      ended := [0] }
  threads := [.done, .active (.run { exclusiveMarker := some .capture } 1)]

theorem sampleCapture_run : Transition.Run LeaseStep System.initial sampleCapture := by
  refine .head ⟨.environment [] (.acquire false), by decide⟩ ?_
  refine .head ⟨.thread [] [] (.load fun marker => by cases marker <;> decide), by decide⟩ ?_
  refine .head ⟨.thread [] [] (.exchanged rfl), by decide⟩ ?_
  refine .head ⟨.thread [] [] .drop, by decide⟩ ?_
  refine .head ⟨.environment [_] (.acquire true), by decide⟩ ?_
  refine .head ⟨.thread [_] [] (.noWorkers rfl), by decide⟩ ?_
  refine .head ⟨.thread [_] [] (.claimed rfl), by decide⟩ ?_
  exact .head ⟨.thread [_] [] (.granted rfl), by decide⟩ .refl

/-- Beside the sample's capture there is no ordinary lease, and no worker of the ended
run. -/
theorem run_lease_exclusive_capture :
    sampleCapture.live (.exclusive .capture) = 1 ∧ sampleCapture.live .ordinary = 0 ∧
      ∀ workerId, (sampleCapture.memory.registries 0).workers.lookup workerId = none := by
  obtain ⟨hword, -, hworkers⟩ := run_lease_exclusive sampleCapture sampleCapture_run
  have hordinary : sampleCapture.live .ordinary = 0 := by
    rcases hword with ⟨hnone, -⟩ | ⟨marker, -, -, -, hzero⟩
    · exact absurd (hnone .capture) (by decide)
    · exact hzero
  exact ⟨by decide, hordinary, hworkers _ (List.mem_cons_of_mem _ List.mem_cons_self) _ 1 rfl
    (by decide) 0 List.mem_cons_self⟩

end Libdeno.Runs
