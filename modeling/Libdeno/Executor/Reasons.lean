import Libdeno.Executor.Classification

/-!
# Libdeno.Executor.Reasons

The two cells that hold a cancel reason: `cancel_reason` of the control, and the reason
in the context that the backends read. Each keeps its first reason. Most requests write
the control and then the context; the deadline of a driver or of the absolute-deadline
guard writes the context alone. `ThreadStep.reasons` lists what a step does to the two
cells. Where no step uses one of the two windows this leaves (`UnracedStep`), the cells
agree; otherwise they may not (`reasons_disagree_raced`).
-/

namespace Libdeno.Executor

open Supervisor

variable {config : AdmissionConfig} {m m' : Memory} {s s' : System}

/-! ### The two cells -/

/-- Where both cells are set they hold the same reason. -/
def Execution.Agree (e : Execution) : Prop :=
  ∀ reason recorded, e.control.cancelReason = some reason →
    e.control.cancellation.reason = some recorded → reason = recorded

/-- What a step does to the two cells of an execution, with the request that did it. -/
inductive ReasonChange (m : Memory) (t : Thread) (key : Nat) (c c' : TaskControl) : Prop
  | fresh : c'.cancelReason = none → c'.cancellation.reason = none → ReasonChange m t key c c'
  | same : c'.cancelReason = c.cancelReason → c'.cancellation.reason = c.cancellation.reason →
      ReasonChange m t key c c'
  | marked (reason : CancelReason) : ¬ c.Barred → c'.cancelReason = some reason →
      c'.cancellation.reason = c.cancellation.reason →
      (reason = .deadline ∨ (∃ caller, t.pc = .cancelling key reason caller) ∨
        ∃ tally drained todo, t.pc = .classifyMark tally drained key todo ∧
          reason = .shutdown) →
      ReasonChange m t key c c'
  | requested (reason : CancelReason) : ¬ c.Barred → c'.cancelReason = some reason →
      c'.cancellation.reason = some (c.cancellation.reason.getD reason) →
      (reason = .deadline ∨ t.pc = .shutdown ∧ key ∈ m.state.ready.map TaskOwner.key ∧
        reason = .shutdown) →
      ReasonChange m t key c c'
  | notified (reason : CancelReason) : c'.cancelReason = c.cancelReason →
      c'.cancellation.reason = some (c.cancellation.reason.getD reason) →
      t.notify = some { key, reason, recorded := false } → ReasonChange m t key c c'
  | deadline : c'.cancelReason = c.cancelReason →
      c'.cancellation.reason = some (c.cancellation.reason.getD .deadline) →
      (∃ owner session, t.pc = .executing owner session ∧ owner.key = key) →
      ReasonChange m t key c c'

section Reasons

variable {t : Thread} {key : Nat}

theorem ReasonChange.refl (c : TaskControl) : ReasonChange m t key c c := .same rfl rfl

theorem reasons_control (same : m'.control key = m.control key) :
    ReasonChange m t key (m.control key) (m'.control key) := by
  rw [same]
  exact .refl _

/-- One execution changes. -/
theorem reasons_modify {k : Nat} {change : Execution → Execution}
    (h : k = key → ReasonChange m t key (m.control key) (change (m.tasks key)).control) :
    ReasonChange m t key (m.control key) ((m.modify k change).control key) := by
  by_cases hk : key = k
  · subst hk
    show ReasonChange m t key (m.control key) ((m.modify key change).tasks key).control
    rw [Memory.modify_tasks_self]
    exact h rfl
  · show ReasonChange m t key (m.control key) ((m.modify k change).tasks key).control
    rw [Memory.modify_tasks_of_ne _ hk]
    exact .refl _

/-- `mark_cancelling`, up to its request on the context. -/
theorem reasons_mark {reason : CancelReason} {outcome : CancelOutcome} {control : TaskControl}
    {k : Nat} (mark : (m.control k).markCancelling reason = (outcome, control))
    (request : k = key → reason = .deadline ∨ (∃ caller, t.pc = .cancelling key reason caller) ∨
      ∃ tally drained todo, t.pc = .classifyMark tally drained key todo ∧ reason = .shutdown) :
    ReasonChange m t key (m.control key) ((m.setControl k control).control key) := by
  refine reasons_modify fun hk => ?_
  subst hk
  show ReasonChange m t k (m.control k) control
  by_cases hrequested : outcome = .requested
  · subst hrequested
    have hcontrol := (markCancelling_requested (congrArg Prod.fst mark)).2.2
    rw [mark] at hcontrol
    dsimp only at hcontrol
    exact .marked reason (not_barred_of_requested mark) (by rw [hcontrol]) (by rw [hcontrol])
      (request rfl)
  · unfold TaskControl.markCancelling at mark
    split at mark
    · obtain ⟨-, rfl⟩ := Prod.mk.inj mark
      exact .refl _
    · split at mark
      · obtain ⟨-, rfl⟩ := Prod.mk.inj mark
        exact .refl _
      · exact absurd (Prod.mk.inj mark).1.symm hrequested

/-- All of `mark_cancelling`, on the owners that leave a list. -/
theorem reasons_markOwners {owners : List TaskOwner} {reason : CancelReason}
    (request : key ∈ owners.map TaskOwner.key → reason = .deadline ∨
      t.pc = .shutdown ∧ key ∈ m.state.ready.map TaskOwner.key ∧ reason = .shutdown) :
    ReasonChange m t key (m.control key) ((m.markOwners owners reason).control key) := by
  show ReasonChange m t key (m.control key)
    (if key ∈ owners.map TaskOwner.key then (m.tasks key).markCancelling reason
      else m.tasks key).control
  split
  · next hmem =>
    unfold Execution.markCancelling
    split
    · next hrequested =>
      have hpair : (m.control key).markCancelling reason =
          (.requested, ((m.control key).markCancelling reason).2) := Prod.ext hrequested rfl
      obtain ⟨-, -, hcontrol⟩ := markCancelling_requested hrequested
      refine .requested reason (not_barred_of_requested hpair) ?_ ?_ (request hmem)
      · show ((m.control key).markCancelling reason).2.cancelReason = _
        rw [Memory.control, hcontrol]
      · show some (((m.control key).markCancelling reason).2.cancellation.reason.getD reason) = _
        rw [Memory.control, hcontrol]
    · next hother =>
      show ReasonChange m t key (m.control key) ((m.control key).markCancelling reason).2
      change ((m.control key).markCancelling reason).1 ≠ .requested at hother
      unfold TaskControl.markCancelling at hother ⊢
      split
      · exact .refl _
      · next hopen =>
        split
        · exact .refl _
        · next hnone => simp [hopen, hnone] at hother
  · exact .refl _

/-- `begin_start` records nothing but its deadline. -/
theorem reasons_beginStart {owner : TaskOwner} {granted : Bool} {requested : Option CancelReason}
    {control : TaskControl}
    (start : (m.control owner.key).beginStart m.now = (granted, requested, control)) :
    ReasonChange m t key (m.control key) ((m.setControl owner.key control).control key) := by
  refine reasons_modify fun hk => ?_
  subst hk
  show ReasonChange m t owner.key (m.control owner.key) control
  cases granted with
  | true =>
      obtain ⟨-, -, -, hcontrol⟩ := beginStart_granted (congrArg Prod.fst start)
      rw [start] at hcontrol
      dsimp only at hcontrol
      rw [hcontrol]
      split <;> exact .same rfl rfl
  | false =>
      have hcontrol := beginStart_refused (congrArg Prod.fst start)
      rw [start] at hcontrol
      dsimp only at hcontrol
      rcases hcontrol with rfl | ⟨hopen, hnone, rfl⟩
      · exact .refl _
      · refine .marked .deadline (fun h => ?_) rfl rfl (.inl rfl)
        rcases h with h | h
        · rw [hopen] at h
          cases h
        · exact h hnone

/-- What a thread's step does to the two cells of an execution. -/
theorem ThreadStep.reasons {t' : Thread} {spawned : List Thread}
    (step : ThreadStep config m t m' t' spawned) :
    ReasonChange m t key (m.control key) (m'.control key) := by
  cases step with
  | recordReason => exact reasons_modify fun hk => .notified _ rfl rfl (by rw [hk])
  | storeRequested => exact reasons_modify fun _ => .same rfl rfl
  | markTerminal hmark =>
      obtain ⟨-, rfl⟩ := markTerminal_true hmark
      exact reasons_modify fun hk => hk ▸ .same rfl rfl
  | markTerminalRefused hmark => exact .refl _
  | release hlock => exact reasons_control (by simp only [Memory.control, dropPermit_tasks])
  | @drop pc owner closing hlock =>
      refine reasons_control ?_
      simp only [Memory.control]
      by_cases hk : key = owner.key
      · rw [hk, Memory.modify_tasks_self, dropPermit_tasks]
        rfl
      · rw [Memory.modify_tasks_of_ne _ hk, dropPermit_tasks]
  | publish => exact reasons_modify fun _ => .same rfl rfl
  | pc h =>
      cases h with
      | submit h =>
          cases h with
          | @admitted runner deadline permit state hlock hsubmit =>
              show ReasonChange m _ key (m.control key)
                (Function.update m.tasks m.state.submissions _ key).control
              by_cases hk : key = m.state.submissions
              · subst hk
                rw [Function.update_self]
                refine .fresh ?_ ?_ <;> cases permit <;> rfl
              · rw [Function.update_of_ne hk]
                exact .refl _
          | _ => exact .refl _
      | manager h =>
          cases h with
          | sweep hlock hsweep htodo => exact reasons_markOwners fun _ => .inl rfl
          | expire hmark => exact reasons_mark hmark fun _ => .inl rfl
          -- A promotion writes to the control, but no reason.
          | @promote expired owner state hpromote =>
              show ReasonChange m _ key (m.control key)
                ((m.setControl owner.key (m.control owner.key).markAccepted).control key)
              refine reasons_modify fun hk => ?_
              subst hk
              show ReasonChange m _ _ _ (TaskControl.markAccepted _)
              unfold TaskControl.markAccepted
              split <;> exact .same rfl rfl
          | _ => exact .refl _
      | cancel h =>
          cases h with
          | mark htake hmark =>
              exact reasons_mark hmark fun hk => .inr (.inl ⟨_, by rw [hk]⟩)
          | @answer k outcome caller => cases caller <;> exact .refl _
          | _ => exact .refl _
      | shutdown h =>
          cases h with
          | close hlock htodo =>
              exact reasons_markOwners fun hmem => .inr ⟨rfl, hmem, rfl⟩
          | mark hmark =>
              exact reasons_mark hmark fun hk => .inr (.inr ⟨_, _, _, by rw [hk], rfl⟩)
          | _ => exact .refl _
      | task h =>
          cases h with
          | start hbegin => exact reasons_beginStart hbegin
          | refuse hbegin => exact reasons_beginStart hbegin
          | authorize hauthorize => exact reasons_modify fun _ => .same rfl rfl
          | started hrunner hstarted =>
              refine reasons_modify fun hk => ?_
              subst hk
              show ReasonChange m _ _ _ (TaskControl.markStarted _).2
              unfold TaskControl.markStarted
              split <;> exact .same rfl rfl
          | recordDeadline => exact reasons_modify fun hk => .deadline rfl rfl ⟨_, _, rfl, hk⟩
          | storeDeadline hreason => exact reasons_modify fun _ => .same rfl rfl
          | resolve backendResult hresolve =>
              obtain ⟨-, rfl, -⟩ := resolveBackendResult_some hresolve
              exact reasons_modify fun hk => hk ▸ .same rfl rfl
          | _ => exact .refl _

end Reasons

/-! ### Requests under way -/

/-- The executions the manager is about to mark. -/
def Pc.dueKeys : Pc → List Nat
  | .collect _ _ todo due => todo ++ due
  | .promote _ due => due
  | _ => []

/-- A request to a context follows its own record in the control. -/
structure Notifies (m : Memory) (t : Thread) : Prop where
  due : ∀ key ∈ t.pc.dueKeys, key < m.state.submissions
  recorded : ∀ notify, t.notify = some notify →
    notify.key < m.state.submissions ∧
      (m.control notify.key).cancelReason = some notify.reason

theorem Notifies.of_nil {t : Thread} (due : t.pc.dueKeys = []) (notify : t.notify = none) :
    Notifies m t := by
  refine ⟨fun key h => ?_, fun n h => ?_⟩
  · rw [due] at h
    cases h
  · rw [notify] at h
    cases h

theorem Notifies.stable {t : Thread} (inv : Notifies m t)
    (submissions : m.state.submissions ≤ m'.state.submissions)
    (evolves : ∀ key < m.state.submissions, Evolves (m.tasks key) (m'.tasks key)) :
    Notifies m' t := by
  refine ⟨fun key h => Nat.lt_of_lt_of_le (inv.due key h) submissions, fun n h => ?_⟩
  obtain ⟨hlt, hreason⟩ := inv.recorded n h
  exact ⟨Nat.lt_of_lt_of_le hlt submissions, changes_reason_eq (evolves _ hlt).control hreason⟩

/-- After `mark_cancelling`, when the context is still to be told. -/
theorem Notifies.marked {key : Nat} {reason : CancelReason} {outcome : CancelOutcome}
    {control : TaskControl} (mark : (m.control key).markCancelling reason = (outcome, control))
    (known : key < m.state.submissions) {pc : Pc} {state : SchedulerState}
    (submissions : state.submissions = m.state.submissions)
    (due : ∀ k ∈ pc.dueKeys, k < m.state.submissions) :
    Notifies { m.setControl key control with state }
      { pc, notify := notifyingRequested key reason outcome } := by
  refine ⟨fun k h => submissions ▸ due k h, fun n h => ?_⟩
  unfold notifyingRequested at h
  dsimp only at h
  split at h
  · next hrequested =>
    subst hrequested
    obtain rfl := Option.some.inj h
    have hcontrol := (markCancelling_requested (congrArg Prod.fst mark)).2.2
    rw [mark] at hcontrol
    dsimp only at hcontrol
    refine ⟨submissions ▸ known, ?_⟩
    show ((m.setControl key control).tasks key).control.cancelReason = some reason
    rw [Memory.setControl, Memory.modify_tasks_self]
    show control.cancelReason = some reason
    rw [hcontrol]
  · cases h

/-- After `begin_start`. -/
theorem Notifies.begun {owner : TaskOwner} {granted : Bool} {requested : Option CancelReason}
    {control : TaskControl}
    (start : (m.control owner.key).beginStart m.now = (granted, requested, control))
    (known : owner.key < m.state.submissions) {pc : Pc} (due : pc.dueKeys = []) :
    Notifies (m.setControl owner.key control) { pc, notify := notifying owner.key requested } := by
  refine ⟨fun k h => ?_, fun n h => ?_⟩
  · rw [due] at h
    cases h
  · obtain ⟨reason, hrequested, rfl⟩ := Option.map_eq_some_iff.mp h
    refine ⟨known, ?_⟩
    show ((m.setControl owner.key control).tasks owner.key).control.cancelReason = some reason
    rw [Memory.setControl, Memory.modify_tasks_self]
    show control.cancelReason = some reason
    subst hrequested
    unfold TaskControl.beginStart at start
    split at start
    · cases start
    · split at start
      · cases start
        rfl
      · split at start <;> cases start

theorem ManagerStep.notifies {pc : Pc} {t' : Thread} {spawned : List Thread}
    {items : Multiset Item} (step : ManagerStep config m pc m' t' spawned)
    (ownership : Ownership m items) (inv : Notifies m { pc }) :
    Notifies m' t' ∧ ∀ u ∈ spawned, Notifies m' u := by
  cases step with
  | @sweep expired state todo hlock hsweep htodo =>
      have hstate : state.submissions = m.state.submissions := by
        have hswept := congrArg (fun p => p.2.submissions) hsweep
        exact hswept.symm
      refine ⟨⟨fun key h => ?_, fun n h => by cases h⟩, by simp⟩
      have hmem : key ∈ todo := by simpa [Pc.dueKeys] using h
      have hknown := (ownership.active_known (htodo.mem_iff.mp hmem)).1
      exact hstate ▸ hknown
  | @collect now expired key todo due =>
      refine ⟨⟨fun k h => inv.due k ?_, fun n h => by cases h⟩, by simp⟩
      simp only [Pc.dueKeys, List.mem_append, List.mem_cons] at h ⊢
      split at h
      · simp only [List.mem_append, List.mem_singleton] at h
        tauto
      · tauto
  | collected =>
      exact ⟨⟨fun k h => inv.due k (List.mem_append_right _ h), fun n h => by cases h⟩, by simp⟩
  | @expire expired key due outcome control hmark =>
      exact ⟨.marked hmark (inv.due key List.mem_cons_self) rfl
        fun k h => inv.due k (List.mem_cons_of_mem _ h), by simp⟩
  | spawnTask => exact ⟨.of_nil rfl rfl, List.forall_mem_singleton.mpr (.of_nil rfl rfl)⟩
  | _ => exact ⟨.of_nil rfl rfl, by simp⟩

theorem ThreadStep.notifies {t t' : Thread} {spawned before after : List Thread}
    (step : ThreadStep config m t m' t' spawned)
    (reachable : ExecutorReachable config ⟨m, before ++ t :: after⟩) (inv : Notifies m t) :
    Notifies m' t' ∧ ∀ u ∈ spawned, Notifies m' u := by
  have ownership := reachable.ownership
  have hsame : Notifies m' t := inv.stable step.scheduler.submissions (step.evolves ownership)
  cases step with
  | storeRequested => exact ⟨⟨hsame.due, fun n h => by cases h⟩, by simp⟩
  | recordReason =>
      refine ⟨⟨hsame.due, fun n h => ?_⟩, by simp⟩
      obtain rfl := Option.some.inj h
      exact hsame.recorded ⟨_, _, false⟩ rfl
  | pc h =>
      cases h with
      | submit h =>
          cases h with
          | managerSpawned =>
              exact ⟨.of_nil rfl rfl, List.forall_mem_singleton.mpr (.of_nil rfl rfl)⟩
          | _ => exact ⟨.of_nil rfl rfl, by simp⟩
      | manager h => exact h.notifies ownership inv
      | cancel h =>
          cases h with
          | @mark key reason caller owner state outcome control htake hmark =>
              have hknown := (reachable.cancelsKnown { pc := .cancelling key reason caller }
                (by simp)).1 key List.mem_cons_self
              have hstate : state.submissions = m.state.submissions := by
                have htaken := congrArg (fun p => p.2.submissions) htake
                rw [← htaken]
                unfold SchedulerState.takeOwner
                split
                · rfl
                · split <;> rfl
              exact ⟨.marked hmark hknown hstate (fun k h => by cases h), by simp⟩
          | @answer key outcome caller =>
              cases caller <;> exact ⟨.of_nil rfl rfl, by simp⟩
          | _ => exact ⟨.of_nil rfl rfl, by simp⟩
      | shutdown h =>
          cases h with
          | @mark tally drained key todo outcome control hmark =>
              have hcounts := reachable.counts { pc := .classifyMark tally drained key todo }
                (by simp) tally rfl
              have hknown := (hcounts.classify (key :: todo) rfl key List.mem_cons_self).1
              exact ⟨.marked hmark hknown rfl (fun k h => by cases h), by simp⟩
          | _ => exact ⟨.of_nil rfl rfl, by simp⟩
      | task h =>
          cases h with
          | @start owner requested control hbegin =>
              have hitem : (⟨owner, .dispatched⟩ : Item) ∈ System.items
                  ⟨m, before ++ { pc := .task owner } :: after⟩ := by
                rw [System.items, Pool.tally_split]
                simp [Thread.items, Pc.items, itemsAt]
              exact ⟨.begun hbegin (ownership.id_eq hitem).2 rfl, by simp⟩
          | @refuse owner requested control hbegin =>
              have hitem : (⟨owner, .dispatched⟩ : Item) ∈ System.items
                  ⟨m, before ++ { pc := .task owner } :: after⟩ := by
                rw [System.items, Pool.tally_split]
                simp [Thread.items, Pc.items, itemsAt]
              exact ⟨.begun hbegin (ownership.id_eq hitem).2 rfl, by simp⟩
          | _ => exact ⟨.of_nil rfl rfl, by simp⟩
  | _ => exact ⟨⟨hsame.due, fun n h => by cases h⟩, by simp⟩

/-! ### Runs without races -/

/-- A mark of the control with `reason` does not contradict what its context has. -/
def TaskControl.Concurs (c : TaskControl) (reason : CancelReason) : Prop :=
  ¬ c.Barred → c.cancellation.reason = none ∨ c.cancellation.reason = some reason

/-- A step uses neither of the two windows: a cancellation by a handle or a `shutdown`
does not mark a control whose context already has the deadline of the backend, and the
backend's deadline is not the first reason in the context of a control that is marked
for another reason. -/
def Unraced (m : Memory) (t : Thread) (m' : Memory) : Prop :=
  match t.pc with
  | .cancelling key reason _ => (m.control key).Concurs reason
  | .classifyMark _ _ key _ => (m.control key).Concurs .shutdown
  | .shutdown => ∀ key ∈ m.state.ready.map TaskOwner.key, (m.control key).Concurs .shutdown
  | .executing owner _ =>
      (m'.control owner.key).cancellation.reason = (m.control owner.key).cancellation.reason ∨
        (m.control owner.key).cancelReason = none ∨
        (m.control owner.key).cancelReason = some .deadline
  | _ => True

/-- A step of the executor that uses neither window. -/
def UnracedStep (config : AdmissionConfig) : System → System → Prop :=
  Pool.Step (fun m t m' t' spawned => Unraced m t m' ∧ ThreadStep config m t m' t' spawned)
    CallStep

theorem UnracedStep.step (step : UnracedStep config s s') : SystemStep config s s' := by
  cases step with
  | thread before after h => exact .thread before after h.2
  | environment threads h => exact .environment threads h

theorem UnracedRun.run (run : Transition.Run (UnracedStep config) s s') :
    Transition.Run (SystemStep config) s s' := by
  induction run with
  | refl => exact .refl
  | tail _ last ih => exact ih.tail last.step

/-- What the context has is the reason of the control, or the deadline of a backend
whose control has none. -/
def TaskControl.Aligned (c : TaskControl) : Prop :=
  ∀ recorded, c.cancellation.reason = some recorded →
    c.cancelReason = some recorded ∨ c.cancelReason = none ∧ recorded = .deadline

theorem TaskControl.Aligned.agree {e : Execution} (inv : e.control.Aligned) : e.Agree := by
  intro reason recorded hreason hrecorded
  rcases inv recorded hrecorded with h | ⟨hnone, -⟩
  · rw [hreason] at h
    exact Option.some.inj h
  · rw [hreason] at hnone
    cases hnone

/-- A control is marked for `reason`, which its context has or is then given. -/
theorem TaskControl.Aligned.mark {c c' : TaskControl} (inv : c.Aligned) {reason : CancelReason}
    (unmarked : ¬ c.Barred) (marked : c'.cancelReason = some reason)
    (concurs : reason = .deadline ∨ c.Concurs reason)
    (context : ∀ recorded, c'.cancellation.reason = some recorded →
      c.cancellation.reason = some recorded ∨ recorded = reason) : c'.Aligned := by
  intro recorded hrecorded
  refine .inl (marked.trans (congrArg some ?_))
  rcases context recorded hrecorded with hbefore | rfl
  · rcases inv recorded hbefore with hreason | ⟨-, rfl⟩
    · refine absurd (Or.inr ?_) unmarked
      rw [hreason]
      exact Option.some_ne_none _
    · rcases concurs with rfl | hconcurs
      · rfl
      · rcases hconcurs unmarked with hnone | hsame
        · rw [hnone] at hbefore
          cases hbefore
        · rw [hsame] at hbefore
          exact Option.some.inj hbefore
  · rfl

/-- A step that uses neither window keeps the cells aligned. -/
theorem ReasonChange.aligned {t : Thread} {key : Nat}
    (change : ReasonChange m t key (m.control key) (m'.control key)) (unraced : Unraced m t m')
    (notifies : Notifies m t) (inv : (m.control key).Aligned) : (m'.control key).Aligned := by
  cases change with
  | fresh hreason hcontext =>
      intro recorded hrecorded
      rw [hcontext] at hrecorded
      cases hrecorded
  | same hreason hcontext =>
      intro recorded hrecorded
      rw [hreason]
      exact inv recorded (hcontext ▸ hrecorded)
  | marked reason hunmarked hreason hcontext why =>
      refine inv.mark hunmarked hreason ?_ fun recorded h => .inl (hcontext ▸ h)
      rcases why with hdeadline | ⟨caller, hpc⟩ | ⟨tally, drained, todo, hpc, rfl⟩
      · exact .inl hdeadline
      · rw [Unraced, hpc] at unraced
        exact .inr unraced
      · rw [Unraced, hpc] at unraced
        exact .inr unraced
  | requested reason hunmarked hreason hcontext why =>
      refine inv.mark hunmarked hreason ?_ fun recorded h => ?_
      · rcases why with hdeadline | ⟨hpc, hready, rfl⟩
        · exact .inl hdeadline
        · rw [Unraced, hpc] at unraced
          exact .inr (unraced key hready)
      · rw [hcontext] at h
        cases hbefore : (m.control key).cancellation.reason with
        | none => exact .inr (by simpa [hbefore] using h.symm)
        | some first => exact .inl (by simpa [hbefore] using h)
  | notified reason hreason hcontext hnotify =>
      -- The record of this request is in the control already.
      have hrecord := (notifies.recorded _ hnotify).2
      intro recorded h
      rw [hreason]
      rw [hcontext] at h
      cases hbefore : (m.control key).cancellation.reason with
      | none =>
          rw [hbefore] at h
          exact .inl (hrecord.trans h)
      | some first =>
          rw [hbefore] at h
          exact inv recorded (hbefore.trans h)
  | deadline hreason hcontext why =>
      obtain ⟨owner, session, hpc, rfl⟩ := why
      rw [Unraced, hpc] at unraced
      intro recorded h
      rw [hreason]
      cases hbefore : (m.control owner.key).cancellation.reason with
      | none =>
          rw [hcontext, hbefore] at h
          obtain rfl : CancelReason.deadline = recorded := Option.some.inj h
          rcases unraced with hsame | hnone | hdeadline
          · rw [hcontext, hbefore] at hsame
            cases hsame
          · exact .inr ⟨hnone, rfl⟩
          · exact .inl hdeadline
      | some first =>
          rw [hcontext, hbefore] at h
          exact inv recorded (hbefore.trans h)

theorem ExecutorReachable.notifies (h : ExecutorReachable config s) :
    ∀ t ∈ s.threads, Notifies s.memory t := by
  refine Transition.Reachable.invariant_of
    (P := fun s : System => ∀ t ∈ s.threads, Notifies s.memory t)
    (I := ExecutorReachable config) (fun s h => h) ?_ ?_ h
  · rintro s rfl t ht
    cases ht
  · intro s s' reachable inv step
    refine Pool.Step.threads (K := ExecutorReachable config)
      (fun known h inv => h.notifies known inv)
      (fun known _ h _ inv => inv.stable h.scheduler.submissions (h.evolves known.ownership))
      (fun {m m' spawned threads} known h => ?_) step reachable inv
    cases h with
    | tick later hlater => exact ⟨fun u _ inv => ⟨inv.due, inv.recorded⟩, by simp⟩
    | _ => exact ⟨fun u _ inv => inv, List.forall_mem_singleton.mpr (.of_nil rfl rfl)⟩

/-- In a run without races the cells of every execution stay aligned. -/
theorem UnracedRun.aligned (run : Transition.Run (UnracedStep config) s s')
    (reachable : ExecutorReachable config s)
    (inv : ∀ key, (s.memory.control key).Aligned) :
    ∀ key, (s'.memory.control key).Aligned := by
  induction run with
  | refl => exact inv
  | @tail a b before last ih =>
      have mid : ExecutorReachable config a := reachable.run (UnracedRun.run before)
      intro key
      cases last with
      | @thread m m' t t' spawned left right h =>
          have change : ReasonChange m t key (m.control key) (m'.control key) := h.2.reasons
          exact change.aligned h.1 (mid.notifies t (by simp)) (ih key)
      | environment threads h => cases h <;> exact ih key

/-- The first reason in a context stays. -/
theorem changes_context {c c' : TaskControl} (h : Relation.ReflTransGen ControlChange c c')
    {reason : CancelReason} (before : c.cancellation.reason = some reason) :
    c'.cancellation.reason = some reason := by
  induction h with
  | refl => exact before
  | tail _ last ih =>
      cases last with
      | insertReason later => exact CancellationContext.insertReason_reason_of_some ih later
      | _ => exact ih

/-- **The two copies of the reason agree, where no step uses the windows.** In every
state of a run without races the two cells of every admitted execution agree where both
are set; and once either has a reason, then in every later state the control has no
other one, and a published result that `resolve_backend_result` derived from the reason
in the control is the failure of the first. -/
theorem reasons_agree (config : AdmissionConfig) (s : System)
    (run : Transition.Run (UnracedStep config) System.initial s) (key : Nat)
    (admitted : (s.memory.tasks key).admitted = true) :
    (s.memory.tasks key).Agree ∧
    ∀ first, (s.memory.control key).cancelReason = some first ∨
        (s.memory.control key).cancellation.reason = some first →
      ∀ s', Transition.Run (UnracedStep config) s s' →
        (∀ reason, (s'.memory.control key).cancelReason = some reason → reason = first) ∧
        ∀ backendResult result, (s'.memory.tasks key).resolved = some backendResult →
          (s'.memory.tasks key).completion = some result →
          supervisorFailure backendResult = none →
          (s'.memory.control key).cancelReason ≠ none →
          result = .error ((s'.memory.control key).cancelledResult first backendResult
            (s'.memory.control key).backend) := by
  have reachable : ExecutorReachable config s := ⟨_, rfl, UnracedRun.run run⟩
  have haligned := UnracedRun.aligned run (.start rfl) fun key recorded h => by cases h
  refine ⟨(haligned key).agree, fun first hfirst s' later => ?_⟩
  have reachable' : ExecutorReachable config s' := reachable.run (UnracedRun.run later)
  obtain ⟨hevolves, -⟩ :=
    Run.evolves (UnracedRun.run later) reachable (reachable.ownership.ids key admitted).2
  have hreason : ∀ reason, (s'.memory.control key).cancelReason = some reason →
      reason = first := by
    intro reason hreason
    rcases hfirst with hcontrol | hcontext
    · have hstays := changes_reason_eq hevolves.control hcontrol
      exact Option.some.inj (hreason.symm.trans hstays)
    · have hstays := changes_context hevolves.control hcontext
      exact (UnracedRun.aligned later reachable haligned key).agree reason first hreason hstays
  refine ⟨hreason, fun backendResult result hresolved hcompletion hnotkept hsome => ?_⟩
  obtain ⟨reason, hset⟩ := Option.ne_none_iff_exists'.mp hsome
  obtain ⟨-, -, hfrom⟩ := (reachable'.ownership.executions key).result result hcompletion
  have hresult := hfrom backendResult hresolved reason hset
  rw [hnotkept] at hresult
  rw [← hreason reason hset]
  exact hresult

theorem sampleCancelled_unraced :
    Transition.Run (UnracedStep sampleConfig) System.initial sampleCancelled := by
  refine .head (.environment [] (.submit .inProcess none)) ?_
  refine .head (.thread [] [] ⟨trivial, .pc (.submit (.admitted rfl rfl))⟩) ?_
  refine .head (.environment [_] (.cancel 0 rfl)) ?_
  refine .head (.thread [_] [] ⟨trivial, .pc (.cancel (.lock rfl rfl))⟩) ?_
  refine .head (.thread [_] [] ⟨fun _ => .inl rfl, .pc (.cancel (.mark rfl rfl))⟩) ?_
  refine .head (.thread [_] [] ⟨trivial, .recordReason⟩) ?_
  refine .head (.thread [_] [] ⟨trivial, .storeRequested⟩) ?_
  refine .head (.thread [_] [] ⟨trivial, .pc (.cancel .unlock)⟩) ?_
  refine .head (.thread [_] [] ⟨trivial, .markTerminal rfl⟩) ?_
  refine .head (.thread [_] [] ⟨trivial, .release fun _ => rfl⟩) ?_
  refine .head (.thread [_] [] ⟨trivial, .publish⟩) ?_
  exact .head (.thread [_] [] ⟨trivial, .pc (.cancel .answer)⟩) .refl

/-- The sample's cells agree on the user's cancellation. -/
theorem reasons_agree_cancelled :
    (sampleCancelled.memory.control 0).cancellation.reason = some .user ∧
      (sampleCancelled.memory.tasks 0).Agree ∧
      ∀ reason, (sampleCancelled.memory.control 0).cancelReason = some reason →
        reason = .user := by
  obtain ⟨hagree, hfirst⟩ :=
    reasons_agree sampleConfig sampleCancelled sampleCancelled_unraced 0 rfl
  exact ⟨rfl, hagree, (hfirst .user (.inl rfl) sampleCancelled .refl).1⟩

/-- A subprocess task with a deadline, when a handle's `cancel` has the lock. -/
def sampleDriven : Memory :=
  { Memory.initial with
    now := 5
    locked := true
    managerStarted := true
    state :=
      { SchedulerState.new with
        active := [(1, 0)]
        nextId := 2
        submissions := 1
        dispatched := [⟨1, 0, .subprocess, some 5, some .active⟩] }
    tasks := Function.update (fun _ => .absent) 0 (.fresh 1 .subprocess (some 5) .active) }

/-- A handle's `cancel` has marked the control, and before it tells the context the
driver of the subprocess finds the deadline due. -/
def sampleDisagreed : System where
  memory :=
    let started := sampleDriven.setControl 0 ((sampleDriven.control 0).beginStart 0).2.2
    (started.setControl 0 ((started.control 0).markCancelling .user).2).modify 0
      (·.insertReason .deadline)
  threads := [{ pc := .done }, { pc := .manager },
    { pc := .executing ⟨1, 0, .subprocess, some 5, some .active⟩ (.new supervisorRequestId) },
    { pc := .cancelMarked 0 .user .requested none .handle
      notify := some { key := 0, reason := .user, recorded := false } }]

theorem sampleDisagreed_reachable : ExecutorReachable sampleConfig sampleDisagreed := by
  refine ⟨System.initial, rfl, ?_⟩
  refine .head (.environment [] (.submit .subprocess (some 5))) ?_
  refine .head (.thread [] [] (.pc (.submit (.admitted rfl rfl)))) ?_
  refine .head (.thread [] [] (.pc (.submit (.claimManager rfl)))) ?_
  refine .head (.thread [] [] (.pc (.submit .managerSpawned))) ?_
  refine .head (.thread [_] [] (.pc (.manager (.sweep rfl rfl (.refl _))))) ?_
  refine .head (.thread [_] [] (.pc (.manager .collect))) ?_
  refine .head (.thread [_] [] (.pc (.manager .collected))) ?_
  refine .head (.thread [_] [] (.pc (.manager (.dispatch rfl rfl)))) ?_
  refine .head (.thread [_] [] (.pc (.manager .spawnTask))) ?_
  refine .head (.thread [_, _] [] (.pc (.task (.start rfl)))) ?_
  refine .head (.environment [_, _, _] (.cancel 0 rfl)) ?_
  refine .head (.thread [_, _, _] [] (.pc (.cancel (.lock rfl rfl)))) ?_
  refine .head (.thread [_, _, _] [] (.pc (.cancel (.mark rfl rfl)))) ?_
  refine .head (.environment [_, _, _, _] (.tick 5 (Nat.zero_le 5))) ?_
  exact .head (.thread [_, _] [_] (.pc (.task .recordDeadline))) .refl

/-- The control says that the user cancelled, the context that the deadline passed. -/
theorem reasons_disagree_raced :
    ExecutorReachable sampleConfig sampleDisagreed ∧
      (sampleDisagreed.memory.tasks 0).admitted = true ∧
      (sampleDisagreed.memory.control 0).deadline = some 5 ∧
      ¬ (sampleDisagreed.memory.tasks 0).Agree :=
  ⟨sampleDisagreed_reachable, rfl, rfl, fun h => nomatch h .user .deadline rfl rfl⟩

end Libdeno.Executor
