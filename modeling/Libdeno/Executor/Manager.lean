import Libdeno.Executor.Admission

/-!
# Libdeno.Executor.Manager

The manager and its flag. Between the flag and the lists there are four *roles*: a
submitter on its way to the flag, a submitter that claimed it, a manager, and a
manager that decided to exit. `Served` counts them against the memory: who claimed
the flag has not yet given it back, nothing is pending unless someone comes to serve
it, and a manager decides to exit only from a closed scheduler. No identifier is
compared, so the number of submissions does not matter.
-/

namespace Libdeno.Executor

open Supervisor

variable {config : AdmissionConfig} {m m' : Memory} {s s' : System}

/-! ### Roles -/

/-- What a thread does for the manager's flag. -/
inductive Role
  /-- Past its admission section, without the flag. -/
  | waiting
  /-- Claimed the flag, its manager not yet spawned. -/
  | spawning
  /-- A manager before its exit decision. -/
  | live
  /-- A manager after it. -/
  | exiting
  deriving DecidableEq

def Pc.role : Pc → Option Role
  | .ensureManager | .failPending => some .waiting
  | .spawnManager | .resetFlag => some .spawning
  | .manager | .collect _ _ _ _ | .promote _ _ | .decided false _ | .idle => some .live
  | .decided true _ | .exiting => some .exiting
  | _ => none

/-- The census of the roles. -/
def Thread.census : Thread → Role → ℕ := Pool.census fun t => t.pc.role

@[simp] theorem census_apply (t : Thread) (r : Role) :
    t.census r = if t.pc.role = some r then 1 else 0 := rfl

/-- Nothing waits to be dispatched. -/
def SchedulerState.NothingPending (s : SchedulerState) : Prop := s.queue = [] ∧ s.ready = []

/-- The flag, the lists and the threads that serve them. -/
structure Served (m : Memory) (n : Role → ℕ) : Prop where
  flag : n .spawning + n .live + n .exiting = if m.managerStarted then 1 else 0
  pending : m.state.NothingPending ∨ 0 < n .waiting + n .spawning + n .live
  exiting : n .exiting = 0 ∨ m.state.Closed

theorem Served.initial : Served .initial 0 where
  flag := rfl
  pending := .inl ⟨rfl, rfl⟩
  exiting := .inl rfl

/-! ### Steps -/

/-- Besides `submit`, nothing makes the lists grow. -/
theorem SchedulerChange.nothingPending {a b : SchedulerState} (change : SchedulerChange config a b)
    (same : b.submissions = a.submissions) (h : a.NothingPending) : b.NothingPending := by
  obtain ⟨hqueue, hready⟩ := h
  have hgrown : a.submissions + 1 ≠ a.submissions := Nat.succ_ne_self _
  cases change with
  | unchanged => exact ⟨hqueue, hready⟩
  | rejected => exact absurd same hgrown
  | admitted runner deadline _ _ _ => exact absurd same hgrown
  | enqueued runner deadline _ _ => exact absurd same hgrown
  | removed hq hr =>
      rw [hqueue] at hq
      rw [hready] at hr
      exact ⟨List.sublist_nil.mp hq, List.sublist_nil.mp hr⟩
  | closed => exact ⟨rfl, rfl⟩
  | released id => exact ⟨hqueue, hready⟩
  | promoted hq _ => simp [hqueue] at hq
  | dispatched hr => simp [hready] at hr

section Steps

variable {rest : Role → ℕ} {t t' : Thread} {spawned : List Thread}

/-- The census after a step of `t`. -/
def censusAfter (t' : Thread) (spawned : List Thread) (rest : Role → ℕ) : Role → ℕ :=
  t'.census + Pool.tally Thread.census spawned + rest

/-- A step that leaves roles and flag alone, and adds nothing to the lists. -/
theorem Served.quiet (inv : Served m (t.census + rest))
    (change : SchedulerChange config m.state m'.state)
    (submissions : m'.state.submissions = m.state.submissions)
    (started : m'.managerStarted = m.managerStarted) (role : t'.pc.role = t.pc.role) :
    Served m' (censusAfter t' [] rest) := by
  have hsame : censusAfter t' [] rest = t.census + rest := by
    funext r
    simp only [censusAfter, Pool.tally_nil, add_zero, Pi.add_apply, census_apply, role]
  rw [hsame]
  obtain ⟨hflag, hpending, hexiting⟩ := inv
  exact ⟨by rw [started]; exact hflag, hpending.imp_left (change.nothingPending submissions),
    hexiting.imp_right change.closed_stable⟩

theorem SubmitStep.served {pc : Pc} (step : SubmitStep config m pc m' t' spawned)
    (inv : Served m (Thread.census { pc } + rest)) : Served m' (censusAfter t' spawned rest) := by
  obtain ⟨hflag, hpending, hexiting⟩ := inv
  cases step with
  | @rejected runner deadline error state hlock hsubmit =>
      rcases submit_error hsubmit with rfl | rfl
      · exact ⟨hflag, hpending, hexiting⟩
      · exact ⟨hflag, hpending, hexiting⟩
  | @admitted runner deadline permit state hlock hsubmit =>
      have hchange := submit_change config m.state runner deadline
      rw [hsubmit] at hchange
      refine ⟨hflag, .inr ?_, hexiting.imp_right hchange.closed_stable⟩
      simp only [censusAfter, Pi.add_apply, census_apply, Pc.role, if_true]
      omega
  | managerRunning hstarted =>
      -- Whoever claimed the flag serves the lists, or has found them closed.
      simp only [Pi.add_apply, census_apply, Pc.role, hstarted, if_true] at hflag hexiting
      have hserved : m.state.NothingPending ∨ 0 < rest .spawning + rest .live := by
        rcases hexiting with hnone | hclosed
        · refine .inr ?_
          simp at hnone hflag
          omega
        · exact .inl hclosed.2
      refine ⟨?_, hserved.imp_right fun h => ?_, ?_⟩
      · simpa [censusAfter, Pc.role, hstarted] using hflag
      · simp [censusAfter, Pc.role]
        omega
      · simpa [censusAfter, Pc.role] using hexiting
  | claimManager hstarted =>
      simp [Pc.role, hstarted] at hflag
      refine ⟨?_, .inr ?_, .inl ?_⟩
      · simp [censusAfter, Pc.role]
        omega
      · simp only [censusAfter, Pi.add_apply, census_apply, Pc.role, if_true]
        omega
      · simp [censusAfter, Pc.role]
        omega
  | managerSpawned =>
      simp [Pc.role] at hflag hexiting
      refine ⟨?_, .inr ?_, ?_⟩
      · simp [censusAfter, Pc.role]
        omega
      · simp only [censusAfter, Pool.tally_cons, Pi.add_apply, census_apply, Pc.role, if_true]
        omega
      · simpa [censusAfter, Pc.role] using hexiting
  | managerFails => exact ⟨hflag, hpending, hexiting⟩
  | resetFlag =>
      -- The flag was this thread's, so nobody else has it.
      have hstarted : m.managerStarted = true := by
        by_contra hnot
        simp [Pc.role, hnot] at hflag
      simp [Pc.role, hstarted] at hflag
      refine ⟨?_, .inr ?_, .inl ?_⟩
      · simp [censusAfter, Pc.role]
        omega
      · simp only [censusAfter, Pi.add_apply, census_apply, Pc.role, if_true]
        omega
      · simp [censusAfter, Pc.role]
        omega
  | failPending message hlock =>
      refine ⟨?_, .inl ⟨rfl, rfl⟩, ?_⟩
      · simpa [censusAfter, Pc.role] using hflag
      · refine Or.imp (fun h => ?_) (fun h => ⟨h.1, rfl, rfl⟩) hexiting
        simpa [censusAfter, Pc.role] using h

theorem shouldExit_closed {state : SchedulerState} (h : state.shouldExit = true) :
    state.Closed := by
  simp only [SchedulerState.shouldExit, SchedulerState.isIdle, Bool.and_eq_true,
    Bool.not_eq_true', List.isEmpty_iff] at h
  exact ⟨h.1, h.2.1.2, h.2.2⟩

theorem isIdle_nothingPending {state : SchedulerState} (h : state.isIdle = true) :
    state.NothingPending := by
  simp only [SchedulerState.isIdle, Bool.and_eq_true, List.isEmpty_iff] at h
  exact ⟨h.1.2, h.2⟩

theorem ManagerStep.served {pc : Pc} (step : ManagerStep config m pc m' t' spawned)
    (inv : Served m (Thread.census { pc } + rest)) : Served m' (censusAfter t' spawned rest) := by
  have hchange := step.scheduler
  cases step with
  | @sweep expired state todo hlock hsweep htodo =>
      obtain ⟨-, rfl⟩ := Prod.mk.inj hsweep
      exact inv.quiet hchange rfl rfl rfl
  | promote hpromote =>
      obtain ⟨queue, -, -, rfl⟩ := promoteNext_eq_some hpromote
      exact inv.quiet hchange rfl rfl rfl
  | @dispatch expired dispatch state hpromote hdispatch =>
      have hsubmissions : state.submissions = m.state.submissions := by
        unfold SchedulerState.dispatchNext at hdispatch
        split at hdispatch <;> exact (congrArg SchedulerState.submissions
          (Prod.mk.inj hdispatch).2).symm
      cases hexit : state.shouldExit with
      | false => exact inv.quiet hchange hsubmissions rfl rfl
      | true =>
          have hclosed : state.Closed := shouldExit_closed hexit
          obtain ⟨hflag, -, -⟩ := inv
          refine ⟨?_, .inl hclosed.2, .inr hclosed⟩
          simp [Pc.role] at hflag
          simp [censusAfter, Pc.role, ← hflag]
          omega
  | clearFlag =>
      obtain ⟨hflag, hpending, hexiting⟩ := inv
      have hstarted : m.managerStarted = true := by
        by_contra hnot
        simp [Pc.role, hnot] at hflag
      have hclosed : m.state.Closed := hexiting.resolve_left (by simp [Pc.role])
      simp [Pc.role, hstarted] at hflag
      refine ⟨?_, .inl hclosed.2, .inr hclosed⟩
      simp [censusAfter, Pc.role]
      omega
  | idleExit hlock hidle =>
      obtain ⟨hflag, -, hexiting⟩ := inv
      have hstarted : m.managerStarted = true := by
        by_contra hnot
        simp [Pc.role, hnot] at hflag
      simp [Pc.role, hstarted] at hflag
      refine ⟨?_, .inl (isIdle_nothingPending hidle), .inl ?_⟩
      · simp [censusAfter, Pc.role]
        omega
      · simp [censusAfter, Pc.role]
        omega
  | spawnTask =>
      obtain ⟨hflag, hpending, hexiting⟩ := inv
      refine ⟨?_, ?_, ?_⟩
      · simpa [censusAfter, Pc.role] using hflag
      · simpa [censusAfter, Pc.role] using hpending
      · simpa [censusAfter, Pc.role] using hexiting
  | _ => exact inv.quiet hchange rfl rfl rfl

/-- A task's thread plays no role. -/
theorem role_of_running {pc : Pc} {owner : TaskOwner} (h : pc.running? = some owner) :
    pc.role = none := by
  cases pc with
  | task _ => rfl
  | refused _ => rfl
  | executing _ _ => rfl
  | authorizing _ _ => rfl
  | _ => cases h

theorem ThreadStep.served (step : ThreadStep config m t m' t' spawned)
    (inv : Served m (t.census + rest)) : Served m' (censusAfter t' spawned rest) := by
  have hchange := step.scheduler
  have hdrop : ∀ owner : TaskOwner, (m.dropPermit owner).managerStarted = m.managerStarted := by
    intro owner
    unfold Memory.dropPermit
    split <;> rfl
  cases step with
  | release hlock => exact inv.quiet hchange (dropPermit_submissions m _) (hdrop _) rfl
  | drop hlock => exact inv.quiet hchange (dropPermit_submissions m _) (hdrop _) rfl
  | pc h =>
      cases h with
      | submit h => exact h.served inv
      | manager h => exact h.served inv
      | cancel h =>
          cases h with
          | mark htake hmark => exact inv.quiet hchange (takeOwner_active htake).2 rfl rfl
          | @answer key outcome caller =>
              cases caller with
              | handle => exact inv.quiet hchange rfl rfl rfl
              | shutdown tally todo => exact inv.quiet hchange rfl rfl rfl
          | _ => exact inv.quiet hchange rfl rfl rfl
      | shutdown h => cases h <;> exact inv.quiet hchange rfl rfl rfl
      | task h =>
          cases h with
          | panic hrunning => exact inv.quiet hchange rfl rfl (role_of_running hrunning).symm
          | _ => exact inv.quiet hchange rfl rfl rfl
  | _ => exact inv.quiet hchange rfl rfl rfl

end Steps

theorem ExecutorReachable.served (h : ExecutorReachable config s) :
    Served s.memory (Pool.tally Thread.census s.threads) := by
  refine Transition.Reachable.invariant
    (P := fun s : System => Served s.memory (Pool.tally Thread.census s.threads)) ?_ ?_ h
  · rintro s rfl
    exact .initial
  · intro s s' inv step
    refine Pool.Step.tally (I := Served) (fun rest h inv => h.served inv)
      (fun {m m' spawned} rest h inv => ?_) step inv
    obtain ⟨hflag, hpending, hexiting⟩ := inv
    cases h with
    | tick later hlater => 
        rw [Pool.tally_nil, add_zero]
        exact ⟨hflag, hpending, hexiting⟩
    | _ =>
        refine ⟨?_, ?_, ?_⟩
        · simpa [Pc.role] using hflag
        · simpa [Pc.role] using hpending
        · simpa [Pc.role] using hexiting

/-! ### No task is stranded -/

/-- **No stranded task.** In every reachable state: if the queue or `ready` is not
empty, then a manager that has not decided to exit is running, or a submitter is still
between its admission section and the end of its `ensure_manager` or `fail_pending`;
and at most one manager is running that has not decided to exit. -/
theorem no_stranded_task (config : AdmissionConfig) (s : System)
    (reachable : ExecutorReachable config s) :
    (s.memory.state.queue ≠ [] ∨ s.memory.state.ready ≠ [] →
      (∃ t ∈ s.threads, t.pc.role = some .live) ∨
        ∃ t ∈ s.threads, t.pc.role = some .waiting ∨ t.pc.role = some .spawning) ∧
      s.threads.countP (·.pc.role = some .live) ≤ 1 := by
  obtain ⟨hflag, hpending, -⟩ := reachable.served
  simp only [Thread.census, Pool.tally_census] at hflag hpending
  refine ⟨fun hsome => ?_, ?_⟩
  · have hpos := hpending.resolve_left fun h => hsome.elim (absurd h.1) (absurd h.2)
    have hone : ∀ r : Role, 0 < s.threads.countP (·.pc.role = some r) →
        ∃ t ∈ s.threads, t.pc.role = some r := by
      intro r h
      simpa using List.countP_pos_iff.mp h
    rcases Nat.add_pos_iff_pos_or_pos.mp hpos with hsubmitter | hlive
    · rcases Nat.add_pos_iff_pos_or_pos.mp hsubmitter with hwaiting | hspawning
      · obtain ⟨t, ht, hrole⟩ := hone .waiting hwaiting
        exact .inr ⟨t, ht, .inl hrole⟩
      · obtain ⟨t, ht, hrole⟩ := hone .spawning hspawning
        exact .inr ⟨t, ht, .inr hrole⟩
    · exact .inl (hone .live hlive)
  · have hle : (if s.memory.managerStarted then 1 else 0) ≤ 1 := by split <;> decide
    omega

/-- In the sample a task waits in each list, and a submitter comes to serve them. -/
theorem no_stranded_task_admitted :
    (∃ t ∈ sampleAdmitted.threads, t.pc.role = some .live) ∨
      ∃ t ∈ sampleAdmitted.threads, t.pc.role = some .waiting ∨ t.pc.role = some .spawning :=
  (no_stranded_task sampleConfig sampleAdmitted sampleAdmitted_reachable).1
    (.inl (List.cons_ne_nil _ _))

end Libdeno.Executor
