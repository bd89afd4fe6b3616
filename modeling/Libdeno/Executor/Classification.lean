import Libdeno.Executor.Shutdown

/-!
# Libdeno.Executor.Classification

Whether what `shutdown` counts as accepted and not started ever runs. It reads a
control and marks it in two sections, and the reason it records reaches the context,
which `authorize_start` reads, later still. A task that starts between the two
sections is counted all the same (`classification_races`). Where no task uses these
windows (`TimelyStep`), no counted task runs.
-/

namespace Libdeno.Executor

open Supervisor

variable {config : AdmissionConfig} {m m' : Memory} {s s' : System}

/-! ### Timely runs -/

/-- No user code was allowed to run by the backend the execution has. -/
def Execution.Spared (e : Execution) : Prop :=
  (e.control.backend ≠ .subprocess → e.entered = false) ∧
    (e.control.backend = .subprocess → e.authorised = false)

/-- A thread is not about to use one of the two windows: it does not mark as accepted
and not started an open control whose task has begun since, and it does not authorise
START for a control that already has the reason of a `shutdown` which its context has
not. -/
def Timely (m : Memory) (t : Thread) : Prop :=
  match t.pc with
  | .classifyMark _ _ key _ => ¬ (m.control key).Barred → (m.tasks key).Spared
  | .authorizing owner session =>
      (m.control owner.key).cancelReason = some .shutdown →
        (m.control owner.key).cancellation.reason = none → session.authorizes none = false
  | _ => True

/-- A step of the executor that uses neither window. -/
def TimelyStep (config : AdmissionConfig) : System → System → Prop :=
  Pool.Step (fun m t m' t' spawned => Timely m t ∧ ThreadStep config m t m' t' spawned) CallStep

theorem TimelyStep.step (step : TimelyStep config s s') : SystemStep config s s' := by
  cases step with
  | thread before after h => exact .thread before after h.2
  | environment threads h => exact .environment threads h

/-! ### What becomes counted -/

/-- The execution is counted as accepted and not started, in a report or by a
`shutdown` that is under way. -/
def CountedNotStarted (s : System) (key : Nat) : Prop :=
  ∃ tally : ShutdownTally, key ∈ tally.acceptedNotStarted ∧
    (tally ∈ s.memory.reports ∨ ∃ t ∈ s.threads, t.pc.tally? = some tally)

/-- How a thread's step may count one more execution. -/
inductive Counting (m : Memory) (t : Thread) (m' : Memory) (t' : Thread) (key : Nat) : Prop
  | ready {tally : ShutdownTally} {todo : List Nat} :
      key ∈ m.state.ready.map TaskOwner.key →
      m' = { m.markOwners m.state.ready .shutdown with state := m.state.close, locked := true } →
      t' = { pc := .classify tally (m.state.queue ++ m.state.ready) todo } →
      Counting m t m' t' key
  | mark {tally : ShutdownTally} {drained : List TaskOwner} {todo : List Nat}
      {control : TaskControl} :
      t = { pc := .classifyMark tally drained key todo } →
      (m.control key).markCancelling .shutdown = (.requested, control) →
      m' = m.setControl key control → Counting m t m' t' key

/-- A step counts what was counted before, and what `Counting` lists. -/
def KeepsTallies (m : Memory) (t : Thread) (m' : Memory) (t' : Thread) : Prop :=
  ∀ tally', t'.pc.tally? = some tally' → ∀ key ∈ tally'.acceptedNotStarted,
    (∃ tally, t.pc.tally? = some tally ∧ key ∈ tally.acceptedNotStarted) ∨
      Counting m t m' t' key

theorem KeepsTallies.of_none {t t' : Thread} (h : t'.pc.tally? = none) :
    KeepsTallies m t m' t' := by
  intro tally htally
  rw [h] at htally
  cases htally

theorem KeepsTallies.of_same {t t' : Thread} (h : t'.pc.tally? = t.pc.tally?) :
    KeepsTallies m t m' t' := by
  intro tally htally key hkey
  exact .inl ⟨tally, h ▸ htally, hkey⟩

theorem CancelStep.keepsTallies {pc : Pc} {t' : Thread} {spawned : List Thread}
    (step : CancelStep m pc m' t' spawned) :
    KeepsTallies m { pc } m' t' ∧ spawned = [] := by
  cases step with
  | @answer key outcome caller =>
      refine ⟨?_, rfl⟩
      cases caller with
      | handle => exact .of_none rfl
      | shutdown tally todo =>
          intro tally' htally k hk
          obtain rfl := Option.some.inj htally
          exact .inl ⟨tally, rfl, hk⟩
  | _ => exact ⟨.of_same rfl, rfl⟩

theorem ShutdownStep.keepsTallies {pc : Pc} {t' : Thread} {spawned : List Thread}
    (step : ShutdownStep m pc m' t' spawned) :
    KeepsTallies m { pc } m' t' ∧ spawned = [] := by
  cases step with
  | @close todo hlock htodo =>
      refine ⟨fun tally htally key hkey => .inr ?_, rfl⟩
      obtain rfl := Option.some.inj htally
      exact .ready hkey rfl rfl
  | @mark tally drained key todo outcome control hmark =>
      refine ⟨fun tally' htally k hk => ?_, rfl⟩
      obtain rfl := Option.some.inj htally
      by_cases hrequested : outcome = .requested
      · subst hrequested
        simp only [if_true, List.mem_append, List.mem_singleton] at hk
        rcases hk with hk | rfl
        · exact .inl ⟨tally, rfl, hk⟩
        · exact .inr (.mark rfl hmark rfl)
      · simp only [if_neg hrequested] at hk
        exact .inl ⟨tally, rfl, hk⟩
  | drained hlock hactive => exact ⟨.of_none rfl, rfl⟩
  | report => exact ⟨.of_none rfl, rfl⟩
  | _ => exact ⟨.of_same rfl, rfl⟩

theorem ThreadStep.keepsTallies {t t' : Thread} {spawned : List Thread}
    (step : ThreadStep config m t m' t' spawned) :
    KeepsTallies m t m' t' ∧ ∀ u ∈ spawned, u.pc.tally? = none := by
  cases step with
  | pc h =>
      cases h with
      | submit h =>
          cases h with
          | managerSpawned => exact ⟨.of_none rfl, List.forall_mem_singleton.mpr rfl⟩
          | _ => exact ⟨.of_none rfl, by simp⟩
      | manager h =>
          cases h with
          | spawnTask => exact ⟨.of_none rfl, List.forall_mem_singleton.mpr rfl⟩
          | _ => exact ⟨.of_none rfl, by simp⟩
      | cancel h =>
          obtain ⟨hkeeps, rfl⟩ := h.keepsTallies
          exact ⟨hkeeps, by simp⟩
      | shutdown h =>
          obtain ⟨hkeeps, rfl⟩ := h.keepsTallies
          exact ⟨hkeeps, by simp⟩
      | task h => cases h <;> exact ⟨.of_none rfl, by simp⟩
  | _ => exact ⟨.of_same rfl, by simp⟩

/-- What a pool counts after a thread's step. -/
theorem CountedNotStarted.thread {t t' : Thread} {spawned before after : List Thread} {key : Nat}
    (step : ThreadStep config m t m' t' spawned)
    (h : CountedNotStarted ⟨m', before ++ t' :: after ++ spawned⟩ key) :
    CountedNotStarted ⟨m, before ++ t :: after⟩ key ∨ Counting m t m' t' key := by
  obtain ⟨tally, hkey, hreport | ⟨u, hu, htally⟩⟩ := h
  · rcases step.reports with hsame | ⟨new, hnew, hlog⟩
    · exact .inl ⟨tally, hkey, .inl (hsame ▸ hreport)⟩
    · simp only [hlog, List.mem_append, List.mem_singleton] at hreport
      rcases hreport with hold | rfl
      · exact .inl ⟨tally, hkey, .inl hold⟩
      · exact .inl ⟨tally, hkey, .inr ⟨t, by simp, hnew⟩⟩
  · obtain ⟨hkeeps, hspawned⟩ := step.keepsTallies
    have hcases : u = t' ∨ u ∈ before ++ after ∨ u ∈ spawned := by
      simp only [List.mem_append, List.mem_cons] at hu ⊢
      tauto
    rcases hcases with rfl | hother | hnew
    · rcases hkeeps tally htally key hkey with ⟨old, hold, hk⟩ | hcounting
      · exact .inl ⟨old, hk, .inr ⟨t, by simp, hold⟩⟩
      · exact .inr hcounting
    · refine .inl ⟨tally, hkey, .inr ⟨u, ?_, htally⟩⟩
      simp only [List.mem_append, List.mem_cons] at hother ⊢
      tauto
    · rw [hspawned u hnew] at htally
      cases htally

/-! ### START -/

theorem authorised_modify {k : Nat} {change : Execution → Execution}
    (same : ∀ e, (change e).authorised = e.authorised) (key : Nat) :
    ((m.modify k change).tasks key).authorised = (m.tasks key).authorised := by
  by_cases hk : key = k
  · rw [hk, Memory.modify_tasks_self, same]
  · rw [Memory.modify_tasks_of_ne _ hk]

theorem authorised_markOwners (m : Memory) (owners : List TaskOwner) (reason : CancelReason)
    (key : Nat) :
    ((m.markOwners owners reason).tasks key).authorised = (m.tasks key).authorised := by
  show (if key ∈ owners.map TaskOwner.key then (m.tasks key).markCancelling reason
    else m.tasks key).authorised = _
  split
  · unfold Execution.markCancelling
    split <;> rfl
  · rfl

/-- START is authorised by the session alone, which reads the reason in the context. -/
theorem ThreadStep.authorised {t t' : Thread} {spawned : List Thread}
    (step : ThreadStep config m t m' t' spawned) {key : Nat}
    (known : key < m.state.submissions) :
    (m'.tasks key).authorised = (m.tasks key).authorised ∨
      ∃ owner session, t.pc = .authorizing owner session ∧ owner.key = key ∧
        (m'.tasks key).authorised = ((m.tasks key).authorised ||
          session.authorizes (m.control key).cancellation.reason) := by
  have hcontrol : ∀ (k : Nat) (control : TaskControl),
      ((m.setControl k control).tasks key).authorised = (m.tasks key).authorised :=
    fun k control => authorised_modify (by exact fun _ => rfl) key
  cases step with
  | recordReason => exact .inl (authorised_modify (by exact fun _ => rfl) key)
  | storeRequested => exact .inl (authorised_modify (by exact fun _ => rfl) key)
  | markTerminal hmark => exact .inl (hcontrol _ _)
  | markTerminalRefused hmark => exact .inl rfl
  | release hlock => exact .inl (by rw [dropPermit_tasks])
  | drop hlock =>
      refine .inl ((authorised_modify (by exact fun _ => rfl) key).trans ?_)
      rw [dropPermit_tasks]
  | publish => exact .inl (authorised_modify (by exact fun _ => rfl) key)
  | pc h =>
      cases h with
      | submit h =>
          cases h with
          | admitted hlock hsubmit =>
              refine .inl ?_
              show (Function.update m.tasks m.state.submissions _ key).authorised = _
              rw [Function.update_of_ne (Nat.ne_of_lt known)]
          | _ => exact .inl rfl
      | manager h =>
          cases h with
          | sweep hlock hsweep htodo => exact .inl (authorised_markOwners m _ _ key)
          | expire hmark => exact .inl (hcontrol _ _)
          | promote hpromote => exact .inl (hcontrol _ _)
          | _ => exact .inl rfl
      | cancel h =>
          cases h with
          | mark htake hmark => exact .inl (hcontrol _ _)
          | @answer key outcome caller => cases caller <;> exact .inl rfl
          | _ => exact .inl rfl
      | shutdown h =>
          cases h with
          | close hlock htodo => exact .inl (authorised_markOwners m _ _ key)
          | mark hmark => exact .inl (hcontrol _ _)
          | _ => exact .inl rfl
      | task h =>
          cases h with
          | start hbegin => exact .inl (hcontrol _ _)
          | refuse hbegin => exact .inl (hcontrol _ _)
          | @authorize owner session session' answer hauthorize =>
              by_cases hk : owner.key = key
              · subst hk
                refine .inr ⟨owner, session, rfl, rfl, ?_⟩
                rw [Memory.modify_tasks_self]
                rfl
              · exact .inl (by rw [Memory.modify_tasks_of_ne _ (Ne.symm hk)])
          | started hrunner hstarted => exact .inl (hcontrol _ _)
          | recordDeadline => exact .inl (authorised_modify (by exact fun _ => rfl) key)
          | storeDeadline hreason => exact .inl (authorised_modify (by exact fun _ => rfl) key)
          | resolve backendResult hresolve => exact .inl (authorised_modify (by exact fun _ => rfl) key)
          | _ => exact .inl rfl

/-! ### Counted executions -/

/-- Why a counted execution stays spared: its owner was withdrawn before it was ever
started, or its control has the reason of a `shutdown`. -/
structure Exempt (s : System) (key : Nat) : Prop where
  known : key < s.memory.state.submissions
  spared : (s.memory.tasks key).Spared
  barred : (∀ i ∈ s.items, i.key = key → i.place.Withdrawn) ∨
    (s.memory.control key).cancelReason = some .shutdown

theorem Place.Withdrawn.not_startable {place : Place} (h : place.Withdrawn) :
    ¬ place.Startable := by
  cases place <;> simp_all [Place.Withdrawn, Place.Startable]

/-- A withdrawn owner stays withdrawn. -/
theorem SystemStep.withdrawn (step : SystemStep config s s') {key : Nat}
    (known : key < s.memory.state.submissions)
    (inv : ∀ i ∈ s.items, i.key = key → i.place.Withdrawn) :
    ∀ i ∈ s'.items, i.key = key → i.place.Withdrawn := by
  intro i' hi' hkey
  obtain ⟨items, items', others, hbefore, hafter, change⟩ := step.ownership
  rw [hafter] at hi'
  rcases change.origin hi' with ⟨hnew, -⟩ | ⟨i, hi, hsame, hfrom⟩
  · omega
  · rw [← hbefore] at hi
    have hwithdrawn := inv i hi (hsame.symm.trans hkey)
    cases hfrom with
    | moved _ hplace =>
        generalize i.place = place at hplace hwithdrawn
        generalize i'.place = place' at hplace
        cases hplace with
        | stay => exact hwithdrawn
        | close _ _ _ _ => trivial
        | _ => cases hwithdrawn
    | advanced _ hadvance =>
        generalize i.place = place at hadvance hwithdrawn
        generalize i'.place = place' at hadvance
        cases hadvance <;> trivial
    | promoted hplace _ _ =>
        rw [hplace] at hwithdrawn
        cases hwithdrawn
    | released _ _ hi' =>
        rw [hi']
        trivial

/-- A step that uses neither window keeps a counted execution spared. -/
theorem TimelyStep.exempt (step : TimelyStep config s s') (reachable : ExecutorReachable config s)
    {key : Nat} (inv : Exempt s key) : Exempt s' key := by
  obtain ⟨hknown, hspared, hbarred⟩ := inv
  have hstep := step.step
  have ownership := reachable.ownership
  have hevolves := hstep.evolves ownership key hknown
  have hbackend : (s'.memory.control key).backend = (s.memory.control key).backend :=
    changes_backend hevolves.control
  refine ⟨Nat.lt_of_lt_of_le hknown hstep.scheduler.submissions, ⟨fun hb => ?_, fun hb => ?_⟩,
    hbarred.imp (hstep.withdrawn hknown) (changes_reason_eq hevolves.control)⟩
  · have hbefore := hspared.1 (hbackend ▸ hb)
    obtain ⟨items, items', others, hitems, -, change⟩ := hstep.ownership
    rw [hitems] at ownership
    refine change.not_entered ownership (fun i hi hkey hstartable => ?_) hbefore
    rcases hbarred with hwithdrawn | hreason
    · have hmem : i ∈ s.items := hitems ▸ Multiset.mem_add.mpr (.inl hi)
      exact absurd hstartable (hwithdrawn i hmem hkey).not_startable
    · exact .inr (.inr (by rw [Memory.control] at hreason; simp [hreason]))
  · have hbefore := hspared.2 (hbackend ▸ hb)
    cases step with
    | @thread m m' t t' spawned before after h =>
        rcases h.2.authorised hknown with hsame | ⟨owner, session, hpc, rfl, hafter⟩
        · exact hsame.trans hbefore
        · have hmem : (⟨owner, .running⟩ : Item) ∈ System.items ⟨m, before ++ t :: after⟩ := by
            rw [System.items, Pool.tally_split]
            refine Multiset.mem_add.mpr (.inr (Multiset.mem_add.mpr (.inl ?_)))
            simp [Thread.items, hpc, Pc.items]
          have hreason := hbarred.resolve_left fun h => h _ hmem rfl
          have htimely := h.1
          rw [Timely, hpc] at htimely
          have hrefused :
              session.authorizes (m.control owner.key).cancellation.reason = false := by
            cases hcontext : (m.control owner.key).cancellation.reason with
            | none => exact htimely hreason hcontext
            | some reason => simp [SupervisorParentSession.authorizes]
          rw [hafter, hbefore, hrefused]
          rfl
    | environment threads h => cases h <;> exact hbefore

/-- An execution that a step counts is exempt after it. -/
theorem Counting.exempt {t t' : Thread} {spawned before after : List Thread} {key : Nat}
    (counting : Counting m t m' t' key) (timely : Timely m t)
    (reachable : ExecutorReachable config ⟨m, before ++ t :: after⟩)
    (reachable' : ExecutorReachable config ⟨m', before ++ t' :: after ++ spawned⟩) :
    Exempt ⟨m', before ++ t' :: after ++ spawned⟩ key := by
  have ownership := reachable.ownership
  cases counting with
  | @ready tally todo hkey hm ht' =>
      subst hm ht'
      obtain ⟨owner, howner, rfl⟩ := List.mem_map.mp hkey
      have hitem : (⟨owner, .ready⟩ : Item) ∈ System.items ⟨m, before ++ t :: after⟩ :=
        Multiset.mem_add.mpr (.inl (Multiset.mem_add.mpr (.inr (mem_itemsAt.mpr ⟨howner, rfl⟩))))
      obtain ⟨-, -, hentered, hauthorised⟩ := (ownership.fits _ hitem).place
      have hsame := interference_entered
        (interference_markOwners m m.state.ready .shutdown owner.key) (ownership.executions _)
      refine ⟨(ownership.id_eq hitem).2, ⟨fun _ => hsame.trans hentered,
        fun _ => (authorised_markOwners m _ _ _).trans hauthorised⟩, .inl fun i hi hkey => ?_⟩
      -- The owner is among those drained, and nothing else has its key.
      have hdrained : (⟨owner, .detached⟩ : Item) ∈ System.items
          ⟨{ m.markOwners m.state.ready .shutdown with state := m.state.close, locked := true },
            before ++ { pc := .classify tally (m.state.queue ++ m.state.ready) todo } :: after ++
              spawned⟩ := by
        refine Multiset.mem_add.mpr (.inr ?_)
        rw [Pool.tally_step]
        refine Multiset.mem_add.mpr (.inl (Multiset.mem_add.mpr (.inl ?_)))
        refine Multiset.mem_add.mpr (.inl (mem_itemsAt.mpr ⟨?_, rfl⟩))
        exact List.mem_append_right _ howner
      rw [reachable'.ownership.item_unique hi hdrained hkey]
      trivial
  | @mark tally drained todo control ht hmark hm =>
      subst ht hm
      have hcounts := reachable.counts { pc := .classifyMark tally drained key todo } (by simp)
        tally rfl
      have hspared := timely (not_barred_of_requested hmark)
      have hcontrol := (markCancelling_requested (congrArg Prod.fst hmark)).2.2
      rw [hmark] at hcontrol
      dsimp only at hcontrol
      have hlifecycle : control.lifecycle = .cancelling := by rw [hcontrol]
      have hbackend : control.backend = (m.control key).backend := by rw [hcontrol]
      refine ⟨(hcounts.classify (key :: todo) rfl key List.mem_cons_self).1, ?_, .inr ?_⟩
      · simp only [Memory.setControl, Memory.modify_tasks_self]
        refine ⟨fun hb => withControl_entered (hspared.1 (hbackend ▸ hb)) ?_,
          fun hb => hspared.2 (hbackend ▸ hb)⟩
        rw [hlifecycle]
        intro h
        cases h
      · simp only [Memory.control, Memory.setControl, Memory.modify_tasks_self]
        show control.cancelReason = some .shutdown
        rw [hcontrol]

/-- In a run of timely steps counted executions are exempt. -/
theorem TimelyRun.exempt (run : Transition.Run (TimelyStep config) System.initial s) :
    ExecutorReachable config s ∧ ∀ key, CountedNotStarted s key → Exempt s key := by
  induction run with
  | refl =>
      refine ⟨.start rfl, fun key h => ?_⟩
      obtain ⟨tally, -, hreport | ⟨t, ht, -⟩⟩ := h
      · cases hreport
      · cases ht
  | @tail a b before last ih =>
      obtain ⟨reachable, hexempt⟩ := ih
      have reachable' := reachable.snoc last.step
      refine ⟨reachable', fun key hcounted => ?_⟩
      by_cases hbefore : CountedNotStarted a key
      · exact last.exempt reachable (hexempt key hbefore)
      · cases last with
        | thread before after h =>
            have hcounting := (hcounted.thread h.2).resolve_left hbefore
            exact hcounting.exempt h.1 reachable reachable'
        | environment threads h =>
            refine absurd ?_ hbefore
            obtain ⟨tally, hkey, hreport | ⟨t, ht, htally⟩⟩ := hcounted
            · refine ⟨tally, hkey, .inl ?_⟩
              cases h <;> exact hreport
            · refine ⟨tally, hkey, .inr ⟨t, ?_, htally⟩⟩
              rcases List.mem_append.mp ht with hold | hnew
              · exact hold
              · cases h with
                | tick later hlater => cases hnew
                | _ =>
                    obtain rfl := List.mem_singleton.mp hnew
                    cases htally

/-- **Counted tasks do not run, where no step uses the windows of the classification.**
In every state of a run of timely steps, an execution that a report counts as accepted
and not started has not entered Started if it is in-process, and has not had START
authorised on its session if it is a subprocess. -/
theorem counted_not_started_spared (config : AdmissionConfig) (s : System)
    (run : Transition.Run (TimelyStep config) System.initial s) :
    ∀ tally ∈ s.memory.reports, ∀ key ∈ tally.acceptedNotStarted,
      ((s.memory.control key).backend ≠ .subprocess → (s.memory.tasks key).entered = false) ∧
      ((s.memory.control key).backend = .subprocess →
        (s.memory.tasks key).authorised = false) := by
  intro tally htally key hkey
  obtain ⟨-, hexempt⟩ := TimelyRun.exempt run
  exact (hexempt key ⟨tally, hkey, .inl htally⟩).spared

/-- A task that was dispatched, and has not begun to start. -/
def sampleTask : TaskOwner := ⟨1, 0, .inProcess, none, some .active⟩

/-- The memory when `shutdown` has closed the scheduler. -/
def sampleClosing : Memory :=
  { Memory.initial with
    managerStarted := true
    state :=
      { SchedulerState.new with
        accepting := false
        active := [(1, 0)]
        nextId := 2
        submissions := 1
        dispatched := [sampleTask] }
    tasks := Function.update (fun _ => .absent) 0 (.fresh 1 .inProcess none .active) }

/-- The task is counted: it is marked before it starts. -/
def sampleSpared : System where
  memory :=
    { ((sampleClosing.setControl 0 ((sampleClosing.control 0).markCancelling .shutdown).2).modify 0
        (·.insertReason .shutdown)).modify 0 (·.storeRequested) with
      reports := [sampleShutTally]
      sectionEnded := true }
  threads := [{ pc := .done }, { pc := .manager }, { pc := .task sampleTask }, { pc := .done }]

theorem sampleSpared_timely :
    Transition.Run (TimelyStep sampleConfig) System.initial sampleSpared := by
  refine .head (.environment [] (.submit .inProcess none)) ?_
  refine .head (.thread [] [] ⟨trivial, .pc (.submit (.admitted rfl rfl))⟩) ?_
  refine .head (.thread [] [] ⟨trivial, .pc (.submit (.claimManager rfl))⟩) ?_
  refine .head (.thread [] [] ⟨trivial, .pc (.submit .managerSpawned)⟩) ?_
  refine .head (.thread [_] [] ⟨trivial, .pc (.manager (.sweep rfl rfl (.refl _)))⟩) ?_
  refine .head (.thread [_] [] ⟨trivial, .pc (.manager .collect)⟩) ?_
  refine .head (.thread [_] [] ⟨trivial, .pc (.manager .collected)⟩) ?_
  refine .head (.thread [_] [] ⟨trivial, .pc (.manager (.dispatch rfl rfl))⟩) ?_
  refine .head (.thread [_] [] ⟨trivial, .pc (.manager .spawnTask)⟩) ?_
  refine .head (.environment [_, _, _] .shutdown) ?_
  refine .head (.thread [_, _, _] [] ⟨trivial, .pc (.shutdown (.close rfl (.refl _)))⟩) ?_
  refine .head (.thread [_, _, _] [] ⟨trivial, .pc (.shutdown (.read rfl))⟩) ?_
  refine .head (.thread [_, _, _] [] ⟨fun _ => ⟨fun _ => rfl, fun h => nomatch h⟩,
    .pc (.shutdown (.mark rfl))⟩) ?_
  refine .head (.thread [_, _, _] [] ⟨trivial, .recordReason⟩) ?_
  refine .head (.thread [_, _, _] [] ⟨trivial, .storeRequested⟩) ?_
  refine .head (.thread [_, _, _] [] ⟨trivial, .pc (.shutdown .unlock)⟩) ?_
  refine .head (.thread [_, _, _] [] ⟨trivial, .pc (.shutdown (.graceOver rfl (.refl _)))⟩) ?_
  refine .head (.thread [_, _, _] [] ⟨trivial, .pc (.shutdown .collect)⟩) ?_
  refine .head (.thread [_, _, _] [] ⟨trivial, .pc (.shutdown .collected)⟩) ?_
  exact .head (.thread [_, _, _] [] ⟨trivial, .pc (.shutdown .report)⟩) .refl

/-- The sample's task is counted, and has not entered Started. -/
theorem counted_not_started_spared_marked :
    0 ∈ sampleShutTally.acceptedNotStarted ∧ (sampleSpared.memory.tasks 0).entered = false := by
  have hcounted : 0 ∈ sampleShutTally.acceptedNotStarted := List.mem_singleton.mpr rfl
  exact ⟨hcounted, (counted_not_started_spared sampleConfig sampleSpared sampleSpared_timely
    sampleShutTally (List.mem_singleton.mpr rfl) 0 hcounted).1 (by decide)⟩

/-- The same task, when it enters Started between the read and the mark: it is counted
all the same. -/
def sampleRaced : System where
  memory :=
    let started := sampleClosing.setControl 0 ((sampleClosing.control 0).beginStart 0).2.2
    { ((started.setControl 0 ((started.control 0).markCancelling .shutdown).2).modify 0
        (·.insertReason .shutdown)).modify 0 (·.storeRequested) with
      reports := [sampleShutTally]
      sectionEnded := true }
  threads := [{ pc := .done }, { pc := .manager },
    { pc := .executing sampleTask (.new supervisorRequestId) }, { pc := .done }]

theorem sampleRaced_reachable : ExecutorReachable sampleConfig sampleRaced := by
  refine ⟨System.initial, rfl, ?_⟩
  refine .head (.environment [] (.submit .inProcess none)) ?_
  refine .head (.thread [] [] (.pc (.submit (.admitted rfl rfl)))) ?_
  refine .head (.thread [] [] (.pc (.submit (.claimManager rfl)))) ?_
  refine .head (.thread [] [] (.pc (.submit .managerSpawned))) ?_
  refine .head (.thread [_] [] (.pc (.manager (.sweep rfl rfl (.refl _))))) ?_
  refine .head (.thread [_] [] (.pc (.manager .collect))) ?_
  refine .head (.thread [_] [] (.pc (.manager .collected))) ?_
  refine .head (.thread [_] [] (.pc (.manager (.dispatch rfl rfl)))) ?_
  refine .head (.thread [_] [] (.pc (.manager .spawnTask))) ?_
  refine .head (.environment [_, _, _] .shutdown) ?_
  refine .head (.thread [_, _, _] [] (.pc (.shutdown (.close rfl (.refl _))))) ?_
  refine .head (.thread [_, _, _] [] (.pc (.shutdown (.read rfl)))) ?_
  refine .head (.thread [_, _] [_] (.pc (.task (.start rfl)))) ?_
  refine .head (.thread [_, _, _] [] (.pc (.shutdown (.mark rfl)))) ?_
  refine .head (.thread [_, _, _] [] .recordReason) ?_
  refine .head (.thread [_, _, _] [] .storeRequested) ?_
  refine .head (.thread [_, _, _] [] (.pc (.shutdown .unlock))) ?_
  refine .head (.thread [_, _, _] [] (.pc (.shutdown (.graceOver rfl (.refl _))))) ?_
  refine .head (.thread [_, _, _] [] (.pc (.shutdown .collect))) ?_
  refine .head (.thread [_, _, _] [] (.pc (.shutdown .collected))) ?_
  exact .head (.thread [_, _, _] [] (.pc (.shutdown .report))) .refl

/-- A report counts a task as accepted and not started that did start. -/
theorem counted_not_started_raced :
    ExecutorReachable sampleConfig sampleRaced ∧
      ∃ tally ∈ sampleRaced.memory.reports, 0 ∈ tally.acceptedNotStarted ∧
        (sampleRaced.memory.control 0).backend = .inProcess ∧
        (sampleRaced.memory.tasks 0).entered = true :=
  ⟨sampleRaced_reachable, sampleShutTally, List.mem_singleton.mpr rfl,
    List.mem_singleton.mpr rfl, rfl, rfl⟩

end Libdeno.Executor
