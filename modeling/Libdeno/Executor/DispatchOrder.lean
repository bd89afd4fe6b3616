import Libdeno.Executor.Admission

/-!
# Libdeno.Executor.DispatchOrder

First come, first served. The order of keys is part of the scheduler's own invariant
(`Fifo`); here it becomes an order of identifiers, and what was overtaken is shown to
have left the line for good: its owner is being closed or is closed, and its code was
never started.
-/

namespace Libdeno.Executor

open Supervisor

variable {config : AdmissionConfig} {m m' : Memory} {s s' : System}

/-! ### Owners taken from `ready` -/

/-- The keys of the owners dispatched so far. -/
def SchedulerState.dispatchedKeys (s : SchedulerState) : List Nat :=
  s.dispatched.map TaskOwner.key

/-- Dispatched owners are never forgotten. -/
theorem SchedulerChange.dispatched_prefix {a b : SchedulerState}
    (change : SchedulerChange config a b) : a.dispatched <+: b.dispatched := by
  cases change <;> first | exact List.prefix_refl _ | exact List.prefix_append _ _

theorem SchedulerChange.dispatchedKeys {a b : SchedulerState}
    (change : SchedulerChange config a b) {key : Nat} (h : key ∈ a.dispatchedKeys) :
    key ∈ b.dispatchedKeys :=
  (change.dispatched_prefix.map TaskOwner.key).subset h

/-- A thread holds, besides owners it closes, only what was dispatched. -/
def HoldsDispatched (m : Memory) (t : Thread) : Prop :=
  ∀ owner, t.pc.taken? = some owner → owner.key ∈ m.state.dispatchedKeys

theorem SubmitStep.holdsDispatched {pc : Pc} {t' : Thread} {spawned : List Thread}
    (step : SubmitStep config m pc m' t' spawned) :
    HoldsDispatched m' t' ∧ ∀ u ∈ spawned, HoldsDispatched m' u := by
  cases step <;> simp [HoldsDispatched, Pc.taken?, Pc.running?]

theorem ManagerStep.holdsDispatched {pc : Pc} {t' : Thread} {spawned : List Thread}
    (step : ManagerStep config m pc m' t' spawned) (inv : HoldsDispatched m { pc }) :
    HoldsDispatched m' t' ∧ ∀ u ∈ spawned, HoldsDispatched m' u := by
  cases step with
  | @dispatch expired dispatch state hpromote hdispatch =>
      refine ⟨fun owner howner => ?_, by simp⟩
      obtain rfl : dispatch = some owner := howner
      unfold SchedulerState.dispatchNext at hdispatch
      split at hdispatch
      · cases hdispatch
      · obtain ⟨howner', rfl⟩ := Prod.mk.inj hdispatch
        obtain rfl := Option.some.inj howner'
        simp [SchedulerState.dispatchedKeys]
  | @spawnTask owner =>
      have h := inv owner rfl
      simp [HoldsDispatched, Pc.taken?, Pc.running?, h]
  | _ => simp [HoldsDispatched, Pc.taken?, Pc.running?]

theorem TaskStep.holdsDispatched {pc : Pc} {t' : Thread} {spawned : List Thread}
    (step : TaskStep m pc m' t' spawned) (inv : HoldsDispatched m { pc }) :
    HoldsDispatched m' t' ∧ ∀ u ∈ spawned, HoldsDispatched m' u := by
  have hstate := step.state
  cases step with
  | refused => simp [HoldsDispatched, Pc.taken?, Pc.running?]
  | resolve _ _ => simp [HoldsDispatched, Pc.taken?, Pc.running?]
  | resolveRefused _ _ => simp [HoldsDispatched, Pc.taken?, Pc.running?]
  | panic _ => simp [HoldsDispatched, Pc.taken?, Pc.running?]
  | _ =>
      refine ⟨fun owner howner => ?_, by simp⟩
      rw [hstate]
      exact inv owner howner

theorem ThreadStep.holdsDispatched {t t' : Thread} {spawned : List Thread}
    (step : ThreadStep config m t m' t' spawned) (inv : HoldsDispatched m t) :
    HoldsDispatched m' t' ∧ ∀ u ∈ spawned, HoldsDispatched m' u := by
  have hkeys : ∀ key ∈ m.state.dispatchedKeys, key ∈ m'.state.dispatchedKeys := fun _ h =>
    step.scheduler.dispatchedKeys h
  cases step with
  | pc h =>
      cases h with
      | submit h => exact h.holdsDispatched
      | manager h => exact h.holdsDispatched inv
      | cancel h =>
          cases h with
          | @answer key outcome caller =>
              cases caller <;> simp [HoldsDispatched, Pc.taken?, Pc.running?, Caller.resume]
          | _ => simp [HoldsDispatched, Pc.taken?, Pc.running?]
      | shutdown h => cases h <;> simp [HoldsDispatched, Pc.taken?, Pc.running?]
      | task h => exact h.holdsDispatched inv
  | _ => exact ⟨fun owner howner => hkeys _ (inv owner howner), by simp⟩

theorem ExecutorReachable.holdsDispatched (h : ExecutorReachable config s) :
    ∀ t ∈ s.threads, HoldsDispatched s.memory t := by
  refine Transition.Reachable.invariant
    (P := fun s : System => ∀ t ∈ s.threads, HoldsDispatched s.memory t) ?_ ?_ h
  · rintro s rfl t ht
    cases ht
  · intro s s' inv step
    refine Pool.Step.threads (K := fun _ => True) (fun _ h inv => h.holdsDispatched inv)
      (fun _ _ h _ inv owner howner => h.scheduler.dispatchedKeys (inv owner howner))
      (fun _ h => ?_) step trivial inv
    cases h <;> refine ⟨fun u _ inv => inv, ?_⟩ <;>
      simp [HoldsDispatched, Pc.taken?, Pc.running?]

/-- Every owner waits in the line, is withdrawn, or was dispatched. -/
theorem ExecutorReachable.place_cases (h : ExecutorReachable config s) {i : Item}
    (hi : i ∈ s.items) :
    ¬ i.place.Taken ∧ i.owner ∈ s.memory.state.ready ++ s.memory.state.queue ∨
      ¬ i.place.Taken ∧ i.place.Withdrawn ∨ i.key ∈ s.memory.state.dispatchedKeys := by
  rcases System.mem_items hi with ⟨hplace, hmem⟩ | ⟨hplace, hmem⟩ | ⟨t, ht, -, htaken⟩ | hout
  · exact .inl ⟨by rw [hplace]; exact id, List.mem_append_right _ hmem⟩
  · exact .inl ⟨by rw [hplace]; exact id, List.mem_append_left _ hmem⟩
  · exact .inr (.inr (h.holdsDispatched t ht i.owner htaken))
  · exact .inr (.inl ⟨hout.not_taken, hout⟩)

/-! ### What was not dispatched -/

/-- The execution never started, and did not complete. -/
def Execution.NeverRan (e : Execution) : Prop :=
  e.Unstarted ∧ e.control.lifecycle ≠ .completed

theorem interference_neverRan {e e' : Execution} (h : Interference e e') (ok : e.Ok)
    (never : e.NeverRan) : e'.NeverRan := by
  induction h with
  | refl => exact never
  | tail before last ih =>
      obtain ⟨⟨hentered, hauthorised⟩, hcompleted⟩ := ih
      obtain ⟨-, -, -, -, -, hfixed⟩ := last.fixed
      refine ⟨⟨(last.entered (interference_ok before ok)).trans hentered,
        hfixed.trans hauthorised⟩, fun h => hcompleted ?_⟩
      have hterminal := last.isTerminal
      rw [h] at hterminal
      rw [← (last.control.terminal_stable hterminal.symm).1, h]

section NeverRan

variable {items items' others : Multiset Item} {dispatched : List Nat}

/-- A step starts and completes nothing but dispatched executions. -/
theorem OwnershipChange.neverRan (change : OwnershipChange m items m' items')
    (inv : Ownership m (items + others))
    (taken : ∀ i ∈ items, i.place.Taken → i.key ∈ dispatched)
    (never : ∀ key ∉ dispatched, (m.tasks key).NeverRan) :
    ∀ key ∉ dispatched, (m'.tasks key).NeverRan := by
  intro key hkey
  have hbefore := never key hkey
  cases change with
  | relocate _ _ hinterference _ =>
      exact interference_neverRan (hinterference key) (inv.executions key) hbefore
  | admission runner deadline permit place htasks _ _ _ =>
      rw [htasks]
      by_cases hk : key = m.state.submissions
      · rw [hk, Function.update_self]
        cases permit <;> exact ⟨⟨rfl, rfl⟩, fun h => nomatch h⟩
      · rw [Function.update_of_ne hk]
        exact hbefore
  | @advance owner place place' e' rest hadvance hitems hitems' hm =>
      subst hm
      show (Function.update m.tasks owner.key e' key).NeverRan
      by_cases hk : key = owner.key
      · have hmem : (⟨owner, place⟩ : Item) ∈ items := by simp [hitems]
        have hfits := inv.fits _ (Multiset.mem_add.mpr (.inl hmem))
        have hnot : ¬ place.Taken := fun h => hkey (hk ▸ taken _ hmem h)
        rw [hk, Function.update_self]
        rw [hk] at hbefore
        -- A place that is not taken advances only by a mark that ends the task.
        cases hadvance with
        | mark hmark =>
            obtain ⟨-, rfl⟩ := markTerminal_true hmark
            obtain ⟨-, -, hterminal, hfailed, -⟩ := hfits.place
            refine ⟨⟨?_, hbefore.1.2⟩, hfailed⟩
            have hstarted : ∀ l : ExecutionState, l.isTerminal = true → l ≠ .started := by
              rintro l hl rfl
              cases hl
            simp [Execution.withControl, hbefore.1.1, hstarted _ hterminal]
        | markRefused hmark => exact hbefore
        | _ => exact absurd trivial hnot
      · rw [Function.update_of_ne hk]
        exact hbefore
  | @promote owner rest hitems hitems' htasks _ _ =>
      rw [htasks]
      by_cases hk : key = owner.key
      · have hmem : (⟨owner, .waiting⟩ : Item) ∈ items := by simp [hitems]
        have hfits := inv.fits _ (Multiset.mem_add.mpr (.inl hmem))
        obtain ⟨-, hopen, hunstarted⟩ := (hfits.promote (inv.executions _)).2.place
        rw [hk, Function.update_self]
        -- It waits, so it is not completed either.
        refine ⟨hunstarted, fun h => ?_⟩
        have hterminal := hopen.1
        have hcompleted := congrArg ExecutionState.isTerminal h
        cases hterminal.symm.trans hcompleted
      · rw [Function.update_of_ne hk]
        exact hbefore
  | release _ _ hm =>
      rw [hm, dropPermit_tasks]
      exact hbefore
  | @drop owner _ hm =>
      subst hm
      by_cases hk : key = owner.key
      · rw [hk, Memory.modify_tasks_self, dropPermit_tasks]
        exact hk ▸ hbefore
      · rw [Memory.modify_tasks_of_ne _ hk, dropPermit_tasks]
        exact hbefore
  | @publish owner result _ hm =>
      subst hm
      by_cases hk : key = owner.key
      · rw [hk, Memory.modify_tasks_self]
        exact hk ▸ hbefore
      · rw [Memory.modify_tasks_of_ne _ hk]
        exact hbefore

end NeverRan

theorem ExecutorReachable.neverRan (h : ExecutorReachable config s) :
    ∀ key ∉ s.memory.state.dispatchedKeys, (s.memory.tasks key).NeverRan := by
  refine Transition.Reachable.invariant_of
    (P := fun s : System =>
      ∀ key ∉ s.memory.state.dispatchedKeys, (s.memory.tasks key).NeverRan)
    (I := ExecutorReachable config) (fun s h => h) ?_ ?_ h
  · rintro s rfl key -
    exact ⟨⟨rfl, rfl⟩, fun h => nomatch h⟩
  · intro s s' reachable inv step key hkey
    obtain ⟨items, items', others, hbefore, hafter, change⟩ := step.ownership
    have ownership := reachable.ownership
    rw [hbefore] at ownership
    refine change.neverRan ownership (fun i hi htaken => ?_) inv key
      fun h => hkey (step.scheduler.dispatchedKeys h)
    have hmem : i ∈ s.items := hbefore ▸ Multiset.mem_add.mpr (.inl hi)
    rcases reachable.place_cases hmem with ⟨hnot, -⟩ | ⟨hnot, -⟩ | hdispatched
    · exact absurd htaken hnot
    · exact absurd htaken hnot
    · exact hdispatched

/-! ### The order of dispatch -/

theorem Run.dispatched_prefix (run : Transition.Run (SystemStep config) s s') :
    s.memory.state.dispatched <+: s'.memory.state.dispatched := by
  induction run with
  | refl => exact List.prefix_refl _
  | tail _ last ih => exact ih.trans last.scheduler.dispatched_prefix

/-- **FIFO dispatch.** In every reachable state, as long as fewer than 2^64
identifiers were allocated: the identifiers dispatched so far, then those ready, then
those queued are strictly increasing; what is dispatched later joins at the end; and an
execution that a later one overtook never ran, and its owner has left the line. -/
theorem dispatch_order (config : AdmissionConfig) (s : System)
    (reachable : ExecutorReachable config s)
    (bound : s.memory.state.submissions < UInt64.size) :
    ((s.memory.state.dispatched ++ s.memory.state.ready ++ s.memory.state.queue).map
        TaskOwner.id).Pairwise (· < ·) ∧
      (∀ s', Transition.Run (SystemStep config) s s' →
        s.memory.state.dispatched <+: s'.memory.state.dispatched) ∧
      ∀ earlier later, earlier < later → later ∈ s.memory.state.dispatchedKeys →
        earlier ∉ s.memory.state.dispatchedKeys →
        (s.memory.tasks earlier).NeverRan ∧
          ∀ i ∈ s.items, i.key = earlier → i.place.Withdrawn := by
  have fifo := reachable.fifo
  refine ⟨?_, fun s' run => Run.dispatched_prefix run,
    fun earlier later hlt hlater hearlier => ⟨reachable.neverRan earlier hearlier,
      fun i hi hkey => ?_⟩⟩
  · rw [List.pairwise_map]
    have hsorted := List.pairwise_map.mp fifo.sorted
    refine hsorted.imp_of_mem fun {a b} ha hb hab => ?_
    have hallocated := fifo.allocated b.key (List.mem_map_of_mem hb)
    rw [fifo.ids a ha, fifo.ids b hb]
    exact idOf_lt hab (by omega)
  · rcases reachable.place_cases hi with ⟨-, hline⟩ | ⟨-, hwithdrawn⟩ | hdispatched
    · have hsorted := fifo.sorted
      rw [SchedulerState.line, List.append_assoc, List.map_append,
        List.pairwise_append] at hsorted
      have hlt' := hsorted.2.2 later hlater i.key (List.mem_map_of_mem hline)
      omega
    · exact hwithdrawn
    · exact absurd (hkey ▸ hdispatched) hearlier

/-- The sample's two tasks are in line, in the order of their submissions. -/
theorem dispatch_order_admitted :
    ((sampleAdmitted.memory.state.dispatched ++ sampleAdmitted.memory.state.ready ++
      sampleAdmitted.memory.state.queue).map TaskOwner.id).Pairwise (· < ·) :=
  (dispatch_order sampleConfig sampleAdmitted sampleAdmitted_reachable (by decide)).1

end Libdeno.Executor
