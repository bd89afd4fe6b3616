import Mathlib.Tactic.Abel
import Libdeno.Executor.Ownership

/-!
# Libdeno.Executor.Steps

What one step of a thread does, once and for all: to the scheduler's state
(`ThreadStep.scheduler`) and to the owners (`ThreadStep.ownership`). Every invariant
of the executor is proved from these two; only what depends on where a thread stands
looks at the steps again.
-/

namespace Libdeno.Executor

open Supervisor

variable {config : AdmissionConfig} {m m' : Memory} {t t' : Thread} {spawned : List Thread}
  {pc : Pc}

/-! ### The scheduler -/

theorem dropPermit_change (config : AdmissionConfig) (m : Memory) (owner : TaskOwner) :
    SchedulerChange config m.state (m.dropPermit owner).state := by
  unfold Memory.dropPermit
  split
  · exact .released owner.id
  · exact .unchanged

theorem resume_state (caller : Caller) (m : Memory) (key : Nat) (outcome : CancelOutcome) :
    (caller.resume m key outcome).1.state = m.state := by
  cases caller <;> rfl

theorem SubmitStep.scheduler (step : SubmitStep config m pc m' t' spawned) :
    SchedulerChange config m.state m'.state := by
  cases step with
  | @rejected runner deadline error state hlock hsubmit =>
      have h := submit_change config m.state runner deadline
      rwa [hsubmit] at h
  | @admitted runner deadline permit state hlock hsubmit =>
      have h := submit_change config m.state runner deadline
      rwa [hsubmit] at h
  | failPending message hlock => exact drain_change config m.state
  | _ => exact .unchanged

theorem ManagerStep.scheduler (step : ManagerStep config m pc m' t' spawned) :
    SchedulerChange config m.state m'.state := by
  cases step with
  | @sweep expired state todo hlock hsweep htodo =>
      have h := sweep_change config m.state m.now
      rwa [hsweep] at h
  | promote hpromote => exact promoteNext_change hpromote
  | @dispatch expired dispatch state hpromote hdispatch =>
      have h := dispatchNext_change config m.state
      rwa [hdispatch] at h
  | _ => exact .unchanged

theorem CancelStep.scheduler (config : AdmissionConfig) (step : CancelStep m pc m' t' spawned) :
    SchedulerChange config m.state m'.state := by
  cases step with
  | @mark key reason caller owner state outcome control htake hmark =>
      have h := takeOwner_change config m.state (m.control key).id
      rwa [htake] at h
  | @answer key outcome caller =>
      rw [resume_state]
      exact .unchanged
  | _ => exact .unchanged

theorem ShutdownStep.scheduler (config : AdmissionConfig)
    (step : ShutdownStep m pc m' t' spawned) : SchedulerChange config m.state m'.state := by
  cases step with
  | close hlock htodo => exact .closed
  | _ => exact .unchanged

theorem TaskStep.state (step : TaskStep m pc m' t' spawned) : m'.state = m.state := by
  cases step <;> rfl

/-- What a thread's step does to the scheduler's state. -/
theorem ThreadStep.scheduler (step : ThreadStep config m t m' t' spawned) :
    SchedulerChange config m.state m'.state := by
  cases step with
  | release hlock => exact dropPermit_change config m _
  | drop hlock => exact dropPermit_change config m _
  | pc h =>
      cases h with
      | submit h => exact h.scheduler
      | manager h => exact h.scheduler
      | cancel h => exact h.scheduler config
      | shutdown h => exact h.scheduler config
      | task h =>
          rw [h.state]
          exact .unchanged
  | _ => exact .unchanged

/-! ### The owners -/

/-- Interference with one execution. -/
theorem interference_modify {key : Nat} {change : Execution → Execution}
    (h : Interference (m.tasks key) (change (m.tasks key))) :
    ∀ k, Interference (m.tasks k) ((m.modify key change).tasks k) := by
  intro k
  by_cases hk : k = key
  · rw [hk, Memory.modify_tasks_self]
    exact h
  · rw [m.modify_tasks_of_ne hk]

theorem interference_markOwners (m : Memory) (owners : List TaskOwner) (reason : CancelReason) :
    ∀ k, Interference (m.tasks k) ((m.markOwners owners reason).tasks k) := by
  intro k
  show Interference (m.tasks k)
    (if k ∈ owners.map TaskOwner.key then (m.tasks k).markCancelling reason else m.tasks k)
  split
  · exact interference_markCancelling _ reason
  · exact .refl

theorem moves_refl {closed : Prop} (items : Multiset Item) :
    Multiset.Rel (Item.Moves closed) items items :=
  Multiset.rel_refl_of_refl_on fun _ _ => ⟨rfl, .stay⟩

theorem moves_itemsAt {closed : Prop} {place place' : Place} (h : Place.Moves closed place place')
    (owners : List TaskOwner) :
    Multiset.Rel (Item.Moves closed) (itemsAt place owners) (itemsAt place' owners) := by
  induction owners with
  | nil => exact .zero
  | cons owner owners ih => exact .cons ⟨rfl, h⟩ ih

/-- Owners about to be closed with a failure. -/
theorem moves_closeAll {closed : Prop} {place : Place} {lifecycle : ExecutionState}
    {result : TaskOwner → Outcome} (place_ne : ∀ stage, place ≠ .closing stage)
    (terminal : lifecycle.isTerminal = true) (failed : lifecycle ≠ .completed)
    (error : ∀ owner, Outcome.isOk (result owner) = false) (owners : List TaskOwner) :
    Multiset.Rel (Item.Moves closed) (itemsAt place owners)
      (closingItems (closeAll owners lifecycle result)) := by
  induction owners with
  | nil => exact .zero
  | cons owner owners ih =>
      exact .cons ⟨rfl, .close place_ne terminal failed (error owner)⟩ ih

theorem closeAll_append (first second : List TaskOwner) (lifecycle : ExecutionState)
    (result : TaskOwner → Outcome) :
    closeAll (first ++ second) lifecycle result =
      closeAll first lifecycle result ++ closeAll second lifecycle result :=
  List.map_append

/-- A step that only interferes and moves items. -/
theorem OwnershipChange.interfere {items items' : Multiset Item}
    (active : m'.state.active = m.state.active)
    (submissions : m'.state.submissions = m.state.submissions)
    (interference : ∀ key, Interference (m.tasks key) (m'.tasks key))
    (moves : Multiset.Rel (Item.Moves (m.state.accepting = false)) items items') :
    OwnershipChange m items m' items' :=
  .relocate active (Nat.le_of_eq submissions.symm) interference moves

/-- A step that leaves executions and owners alone. -/
theorem OwnershipChange.quiet {items items' : Multiset Item}
    (active : m'.state.active = m.state.active)
    (submissions : m'.state.submissions = m.state.submissions)
    (tasks : m'.tasks = m.tasks) (same : items' = items) :
    OwnershipChange m items m' items' := by
  subst same
  refine .interfere active submissions (fun key => ?_) (moves_refl _)
  rw [tasks]

/-- The items a step of `t` reaches, before it. -/
def reached (m : Memory) (t : Thread) : Multiset Item := m.state.items + t.items

/-- The items it reached, after it. -/
def reachedAfter (m : Memory) (t : Thread) (spawned : List Thread) : Multiset Item :=
  m.state.items + (t.items + Pool.tally Thread.items spawned)

theorem submit_error {error : SubmitError} {state : SchedulerState} {runner : ExecutionBackend}
    {deadline : Option Nat}
    (h : m.state.submit config runner deadline = (.error error, state)) :
    state = m.state ∨ state = m.state.allocate := by
  unfold SchedulerState.submit at h
  split at h
  · exact .inl (Prod.mk.inj h).2.symm
  · split at h
    · cases h
    · split at h
      · exact .inr (Prod.mk.inj h).2.symm
      · cases h

/-- The two ways to be admitted. -/
theorem submit_ok {permit : TaskPermit} {state : SchedulerState} {runner : ExecutionBackend}
    {deadline : Option Nat}
    (h : m.state.submit config runner deadline = (.ok permit, state)) :
    permit = .active ∧ state =
        { m.state.allocate with
          active := m.state.active.insert m.state.nextId m.state.submissions
          ready := m.state.ready ++ [m.state.newOwner runner deadline .active] } ∨
      permit = .queued ∧ state =
        { m.state.allocate with
          queue := m.state.queue ++ [m.state.newOwner runner deadline .queued] } := by
  unfold SchedulerState.submit at h
  split at h
  · cases h
  · split at h
    · obtain ⟨hpermit, rfl⟩ := Prod.mk.inj h
      exact .inl ⟨(Except.ok.inj hpermit).symm, rfl⟩
    · split at h
      · cases h
      · obtain ⟨hpermit, rfl⟩ := Prod.mk.inj h
        exact .inr ⟨(Except.ok.inj hpermit).symm, rfl⟩

/-- A step within a function that keeps its owners and the scheduler's lists. -/
theorem OwnershipChange.within {pc' : Pc} {notify : Option Notify}
    (state : m'.state = m.state) (interference : ∀ key, Interference (m.tasks key) (m'.tasks key))
    (items : pc'.items = pc.items) :
    OwnershipChange m (reached m { pc }) m' (reachedAfter m' { pc := pc', notify } []) := by
  refine .interfere (by rw [state]) (by rw [state]) interference ?_
  simp only [reached, reachedAfter, Thread.items, state, items, closingItems_nil,
    Pool.tally_nil, add_zero]
  exact moves_refl _

/-- A step at whose end a function closes the owners it held. -/
theorem OwnershipChange.closes {pc' : Pc} {closing : List Closing}
    (state : m'.state = m.state) (tasks : m'.tasks = m.tasks) (items : pc'.items = 0)
    (moves : Multiset.Rel (Item.Moves (m.state.accepting = false)) pc.items (closingItems closing)) :
    OwnershipChange m (reached m { pc }) m' (reachedAfter m' { pc := pc', closing } []) := by
  refine .interfere (by rw [state]) (by rw [state]) (fun key => by rw [tasks]) ?_
  simp only [reached, reachedAfter, Thread.items, state, items, closingItems_nil,
    Pool.tally_nil, add_zero, zero_add]
  exact (moves_refl _).add moves

/-- A step in which the holder of an owner changes its execution. -/
theorem OwnershipChange.advances {pc' : Pc} {notify : Option Notify} {closing : List Closing}
    {owner : TaskOwner} {place place' : Place} {change : Execution → Execution}
    (advance : Advance owner (m.tasks owner.key) place (change (m.tasks owner.key)) place')
    (before : pc.items = {⟨owner, place⟩})
    (after : pc'.items + closingItems closing = {⟨owner, place'⟩}) :
    OwnershipChange m (reached m { pc }) (m.modify owner.key change)
      (reachedAfter (m.modify owner.key change) { pc := pc', notify, closing } []) := by
  refine @OwnershipChange.advance _ _ _ _ _ _ _ _ m.state.items advance ?_ ?_ rfl
  · rw [reached, Thread.items, before, closingItems_nil, add_zero, add_comm]
  · rw [reachedAfter, Thread.items, after, Pool.tally_nil, add_zero, add_comm]
    rfl

/-- The same where the execution stays as it is. -/
theorem OwnershipChange.advancesNothing {pc' : Pc} {notify : Option Notify}
    {closing : List Closing} {owner : TaskOwner} {place place' : Place}
    (advance : Advance owner (m.tasks owner.key) place (m.tasks owner.key) place')
    (before : pc.items = {⟨owner, place⟩})
    (after : pc'.items + closingItems closing = {⟨owner, place'⟩}) :
    OwnershipChange m (reached m { pc }) m (reachedAfter m { pc := pc', notify, closing } []) := by
  have hsame : m.modify owner.key id = m := by
    rw [Memory.modify, id, Function.update_eq_self]
  have h := @OwnershipChange.advances m pc pc' notify closing owner place place' id
    advance before after
  rwa [hsame] at h

theorem SubmitStep.ownership (step : SubmitStep config m pc m' t' spawned) :
    OwnershipChange m (reached m { pc }) m' (reachedAfter m' t' spawned) := by
  cases step with
  | @rejected runner deadline error state hlock hsubmit =>
      rcases submit_error hsubmit with rfl | rfl
      · exact .quiet rfl rfl rfl rfl
      · exact .relocate rfl (Nat.le_succ _) (fun _ => .refl) (moves_refl _)
  | @admitted runner deadline permit state hlock hsubmit =>
      rcases submit_ok hsubmit with ⟨rfl, rfl⟩ | ⟨rfl, rfl⟩
      · refine .admission runner deadline .active .ready rfl rfl ?_ (.inl ⟨rfl, rfl, rfl⟩)
        simp only [reached, reachedAfter, SchedulerState.items, SchedulerState.allocate,
          itemsAt_append, itemsAt_cons, itemsAt_nil, Thread.items, Pc.items, closingItems_nil,
          Pool.tally_nil, add_zero]
        abel
      · refine .admission runner deadline .queued .waiting rfl rfl ?_ (.inr ⟨rfl, rfl, rfl⟩)
        simp only [reached, reachedAfter, SchedulerState.items, SchedulerState.allocate,
          itemsAt_append, itemsAt_cons, itemsAt_nil, Thread.items, Pc.items, closingItems_nil,
          Pool.tally_nil, add_zero]
        abel
  | managerRunning h => exact .within rfl (fun _ => .refl) rfl
  | claimManager h => exact .within rfl (fun _ => .refl) rfl
  | managerSpawned => exact .quiet rfl rfl rfl rfl
  | managerFails => exact .within rfl (fun _ => .refl) rfl
  | resetFlag => exact .within rfl (fun _ => .refl) rfl
  | failPending message hlock =>
      refine .interfere rfl rfl (fun _ => .refl) ?_
      simp only [reached, reachedAfter, SchedulerState.items, SchedulerState.drain, itemsAt_nil,
        Thread.items, Pc.items, closingItems_nil, closeAll_append, closingItems_append,
        Pool.tally_nil, add_zero, zero_add]
      exact (moves_closeAll (by simp) (by decide) (by decide) (fun _ => by rfl) _).add
        (moves_closeAll (by simp) (by decide) (by decide) (fun _ => by rfl) _)

/-- `mark_cancelling` on a control that may not be the thread's own. -/
theorem interference_mark {key : Nat} {reason : CancelReason} {outcome : CancelOutcome}
    {control : TaskControl} (h : (m.control key).markCancelling reason = (outcome, control)) :
    ∀ k, Interference (m.tasks k) ((m.setControl key control).tasks k) := by
  refine interference_modify (.single ?_)
  have hmark := @Interfere.mark (m.tasks key) reason
  have hcontrol : ((m.tasks key).control.markCancelling reason).2 = control :=
    congrArg Prod.snd h
  rwa [hcontrol] at hmark

theorem ManagerStep.ownership (step : ManagerStep config m pc m' t' spawned) :
    OwnershipChange m (reached m { pc }) m' (reachedAfter m' t' spawned) := by
  cases step with
  | @sweep expired state todo hlock hsweep htodo =>
      obtain ⟨rfl, rfl⟩ := Prod.mk.inj hsweep
      refine .interfere rfl rfl (interference_markOwners m _ _) ?_
      simp only [reached, reachedAfter, SchedulerState.items, Thread.items, Pc.items,
        itemsAt_append, closingItems_nil, Pool.tally_nil, add_zero]
      rw [itemsAt_filter .waiting m.state.queue (·.expired m.now),
        itemsAt_filter .ready m.state.ready (·.expired m.now), add_add_add_comm]
      exact (moves_refl _).add
        ((moves_itemsAt .detachWaiting _).add (moves_itemsAt .detachReady _))
  | collect => exact .within rfl (fun _ => .refl) rfl
  | collected => exact .within rfl (fun _ => .refl) rfl
  | expire hmark => exact .within rfl (interference_mark hmark) rfl
  | @promote expired owner state hpromote =>
      obtain ⟨queue, hqueue, -, rfl⟩ := promoteNext_eq_some hpromote
      refine @OwnershipChange.promote _ _ _ _ owner
        (itemsAt .waiting queue + itemsAt .ready m.state.ready + itemsAt .detached expired)
        ?_ ?_ rfl rfl rfl
      · simp only [reached, SchedulerState.items, hqueue, itemsAt_cons, Thread.items, Pc.items,
          closingItems_nil, add_zero]
        abel
      · simp only [reachedAfter, SchedulerState.items, itemsAt_append, itemsAt_cons, itemsAt_nil,
          Thread.items, Pc.items, closingItems_nil, Pool.tally_nil, add_zero]
        abel
  | @dispatch expired dispatch state hpromote hdispatch =>
      have hclose : Multiset.Rel (Item.Moves (m.state.accepting = false)) (itemsAt .detached expired)
          (closingItems (closeAll expired .terminated fun owner =>
            .error ((m.control owner.key).reasonFailure .deadline))) :=
        moves_closeAll (by simp) (by decide) (by decide) (fun _ => by rfl) _
      cases hready : m.state.ready with
      | nil =>
          obtain ⟨rfl, rfl⟩ : dispatch = none ∧ state = m.state := by
            simpa [SchedulerState.dispatchNext, hready, eq_comm] using hdispatch
          refine .interfere rfl rfl (fun _ => .refl) ?_
          simp only [reached, reachedAfter, Thread.items, Pc.items, Option.toList_none,
            itemsAt_nil, closingItems_nil, Pool.tally_nil, add_zero, zero_add]
          exact (moves_refl _).add hclose
      | cons owner ready =>
          obtain ⟨rfl, rfl⟩ : dispatch = some owner ∧ state =
              { m.state with ready, dispatched := m.state.dispatched ++ [owner] } := by
            simpa [SchedulerState.dispatchNext, hready, eq_comm] using hdispatch
          refine .interfere rfl rfl (fun _ => .refl) ?_
          have hplace : Place.Moves (m.state.accepting = false) .ready
              (if ({ m.state with
                  ready, dispatched := m.state.dispatched ++ [owner] } : SchedulerState).shouldExit
                then .abandoned else .dispatched) := by
            split
            · next hexit =>
              refine .abandon ?_
              simp only [SchedulerState.shouldExit, Bool.and_eq_true, Bool.not_eq_true'] at hexit
              exact hexit.1
            · exact .dispatch
          have hbefore : reached m { pc := .promote expired [] } =
              itemsAt .waiting m.state.queue + itemsAt .ready ready +
                (itemsAt .ready [owner] + itemsAt .detached expired) := by
            simp only [reached, SchedulerState.items, hready, Thread.items, Pc.items,
              itemsAt_cons, itemsAt_nil, closingItems_nil, add_zero]
            abel
          rw [hbefore]
          simp only [reachedAfter, SchedulerState.items, Thread.items, Pc.items,
            Option.toList_some, Pool.tally_nil, add_zero]
          exact (moves_refl _).add ((moves_itemsAt hplace _).add hclose)
  | @leave dispatch =>
      refine .closes rfl rfl rfl ?_
      cases dispatch with
      | none => exact .zero
      | some owner => exact .cons ⟨rfl, .giveUp⟩ .zero
  | clearFlag => exact .within rfl (fun _ => .refl) rfl
  | goIdle => exact .within rfl (fun _ => .refl) rfl
  | idleExit hlock hidle => exact .within rfl (fun _ => .refl) rfl
  | again hlock hidle => exact .within rfl (fun _ => .refl) rfl
  | spawnTask => exact .quiet rfl rfl rfl rfl
  | spawnTaskFails message =>
      exact .closes rfl rfl rfl
        (moves_closeAll (by simp) (by decide) (by decide) (fun _ => by rfl) _)

/-- `request_cancel` takes an owner out of the lists, or none. -/
theorem takeOwner_items {closed : Prop} {s state : SchedulerState} {id : UInt64}
    {owner : Option TaskOwner} (h : s.takeOwner id = (owner, state)) :
    Multiset.Rel (Item.Moves closed) s.items (state.items + itemsAt .detached owner.toList) := by
  unfold SchedulerState.takeOwner at h
  split at h
  · next found hfind =>
    obtain ⟨rfl, rfl⟩ := Prod.mk.inj h
    simp only [SchedulerState.items, itemsAt_find .waiting hfind, Option.toList_some]
    rw [add_comm, add_comm {_}, ← add_assoc, add_comm (itemsAt .ready s.ready)]
    exact (moves_refl _).add (moves_itemsAt .detachWaiting [found])
  · split at h
    · next found hfind =>
      obtain ⟨rfl, rfl⟩ := Prod.mk.inj h
      simp only [SchedulerState.items, itemsAt_find .ready hfind, Option.toList_some]
      rw [add_comm {_}, ← add_assoc]
      exact (moves_refl _).add (moves_itemsAt .detachReady [found])
    · obtain ⟨rfl, rfl⟩ := Prod.mk.inj h
      rw [Option.toList_none, itemsAt_nil, add_zero]
      exact moves_refl _

theorem takeOwner_active {s state : SchedulerState} {id : UInt64} {owner : Option TaskOwner}
    (h : s.takeOwner id = (owner, state)) :
    state.active = s.active ∧ state.submissions = s.submissions := by
  unfold SchedulerState.takeOwner at h
  split at h
  · obtain ⟨-, rfl⟩ := Prod.mk.inj h
    exact ⟨rfl, rfl⟩
  · split at h
    · obtain ⟨-, rfl⟩ := Prod.mk.inj h
      exact ⟨rfl, rfl⟩
    · obtain ⟨-, rfl⟩ := Prod.mk.inj h
      exact ⟨rfl, rfl⟩

theorem CancelStep.ownership (step : CancelStep m pc m' t' spawned) :
    OwnershipChange m (reached m { pc }) m' (reachedAfter m' t' spawned) := by
  cases step with
  | terminal hlock hterminal => exact .within rfl (fun _ => .refl) rfl
  | lock hlock hopen => exact .within rfl (fun _ => .refl) rfl
  | @mark key reason caller owner state outcome control htake hmark =>
      obtain ⟨hactive, hsubmissions⟩ := takeOwner_active htake
      refine .interfere hactive hsubmissions (interference_mark hmark) ?_
      simp only [reached, reachedAfter, Thread.items, Pc.items, closingItems_nil,
        Pool.tally_nil, add_zero]
      exact takeOwner_items htake
  | unlock =>
      exact .closes rfl rfl rfl
        (moves_closeAll (by simp) (by decide) (by decide) (fun _ => by rfl) _)
  | @answer key outcome caller =>
      cases caller with
      | handle => exact .within rfl (fun _ => .refl) rfl
      | shutdown tally todo => exact .within rfl (fun _ => .refl) rfl

theorem ShutdownStep.ownership (step : ShutdownStep m pc m' t' spawned) :
    OwnershipChange m (reached m { pc }) m' (reachedAfter m' t' spawned) := by
  cases step with
  | close hlock htodo =>
      refine .interfere rfl rfl (interference_markOwners m _ _) ?_
      simp only [reached, reachedAfter, SchedulerState.items, SchedulerState.close,
        SchedulerState.drain, Thread.items, Pc.items, itemsAt_nil, itemsAt_append,
        closingItems_nil, Pool.tally_nil, add_zero, zero_add]
      exact (moves_itemsAt .detachWaiting _).add (moves_itemsAt .detachReady _)
  | read haccepted => exact .within rfl (fun _ => .refl) rfl
  | skip hother => exact .within rfl (fun _ => .refl) rfl
  | mark hmark => exact .within rfl (interference_mark hmark) rfl
  | unlock =>
      exact .closes rfl rfl rfl
        (moves_closeAll (by simp) (by decide) (by decide) (fun _ => by rfl) _)
  | drained hlock hactive => exact .within rfl (fun _ => .refl) rfl
  | graceOver hlock htodo => exact .within rfl (fun _ => .refl) rfl
  | collect => exact .within rfl (fun _ => .refl) rfl
  | collected => exact .within rfl (fun _ => .refl) rfl
  | skipTerminal hterminal => exact .within rfl (fun _ => .refl) rfl
  | cancel hopen => exact .within rfl (fun _ => .refl) rfl
  | report => exact .within rfl (fun _ => .refl) rfl

/-- The one item of a task's thread. -/
theorem running_items {owner : TaskOwner} (h : pc.running? = some owner) :
    ∃ place, (∀ stage, place ≠ .closing stage) ∧ pc.items = itemsAt place [owner] := by
  cases pc with
  | task o =>
      obtain rfl := Option.some.inj h
      exact ⟨.dispatched, by simp, rfl⟩
  | refused o =>
      obtain rfl := Option.some.inj h
      exact ⟨.refused, by simp, rfl⟩
  | executing o session =>
      obtain rfl := Option.some.inj h
      exact ⟨.running, by simp, rfl⟩
  | authorizing o session =>
      obtain rfl := Option.some.inj h
      exact ⟨.running, by simp, rfl⟩
  | _ => cases h

theorem TaskStep.ownership (step : TaskStep m pc m' t' spawned) :
    OwnershipChange m (reached m { pc }) m' (reachedAfter m' t' spawned) := by
  cases step with
  | start hbegin => exact .advances (.start hbegin) rfl rfl
  | refuse hbegin => exact .advances (.refuse hbegin) rfl rfl
  | refused =>
      exact .closes rfl rfl rfl
        (moves_closeAll (by simp) (by decide) (by decide) (fun _ => by rfl) _)
  | session json op hrunner hop => exact .within rfl (fun _ => .refl) rfl
  | accepted hrunner => exact .within rfl (fun _ => .refl) rfl
  | authorize hauthorize => exact .advances (.authorize _) rfl rfl
  | started hrunner hstarted => exact .advances .started rfl rfl
  | recordDeadline =>
      exact .within rfl (interference_modify (.single (.insertReason _))) rfl
  | storeDeadline hreason =>
      exact .within rfl (interference_modify (.single .storeRequested)) rfl
  | resolve backendResult hresolve => exact .advances (.resolve hresolve) rfl rfl
  | resolveRefused backendResult hresolve =>
      exact .advancesNothing (.resolveRefused hresolve) rfl rfl
  | @panic pc owner hrunning =>
      obtain ⟨place, hplace, hitems⟩ := running_items hrunning
      refine .closes rfl rfl rfl ?_
      rw [hitems]
      exact moves_closeAll hplace (by decide) (by decide) (fun _ => by rfl) [owner]

theorem dropPermit_items (m : Memory) (owner : TaskOwner) :
    (m.dropPermit owner).state.items = m.state.items := by
  unfold Memory.dropPermit
  split <;> rfl

/-- What a thread's step does to the owners it reaches. -/
theorem ThreadStep.ownership (step : ThreadStep config m t m' t' spawned) :
    OwnershipChange m (reached m t) m' (reachedAfter m' t' spawned) := by
  cases step with
  | recordReason =>
      refine .interfere rfl rfl (interference_modify (.single (.insertReason _))) ?_
      simp only [reachedAfter, Pool.tally_nil, add_zero]
      exact moves_refl _
  | storeRequested =>
      refine .interfere rfl rfl (interference_modify (.single .storeRequested)) ?_
      simp only [reachedAfter, Pool.tally_nil, add_zero]
      exact moves_refl _
  | @markTerminal pc owner lifecycle result closing control hmark =>
      refine @OwnershipChange.advance _ _ _ _ owner (.closing (.mark lifecycle result))
        (.closing (.release (some result))) _
        (m.state.items + (pc.items + closingItems closing)) (.mark hmark) ?_ ?_ rfl
      · simp only [reached, Thread.items, closingItems_cons]
        abel
      · simp only [reachedAfter, Thread.items, closingItems_cons, Pool.tally_nil, add_zero]
        rw [show (m.setControl owner.key control).state = m.state from rfl]
        abel
  | @markTerminalRefused pc owner lifecycle result closing control hmark =>
      refine @OwnershipChange.advance _ _ _ _ owner (.closing (.mark lifecycle result))
        (.closing (.release none)) _
        (m.state.items + (pc.items + closingItems closing)) (.markRefused hmark) ?_ ?_
        (by rw [Function.update_eq_self])
      · simp only [reached, Thread.items, closingItems_cons]
        abel
      · simp only [reachedAfter, Thread.items, closingItems_cons, Pool.tally_nil, add_zero]
        abel
  | @release pc owner result closing hlock =>
      refine @OwnershipChange.release _ _ _ _ owner result
        (m.state.items + (pc.items + closingItems closing)) ?_ ?_ rfl
      · simp only [reached, Thread.items, closingItems_cons]
        abel
      · simp only [reachedAfter, Thread.items, closingItems_cons, Pool.tally_nil, add_zero,
          dropPermit_items]
        abel
  | @drop pc owner closing hlock =>
      refine @OwnershipChange.drop _ _ _ _ owner ?_ rfl
      simp only [reached, reachedAfter, Thread.items, closingItems_cons, Pool.tally_nil, add_zero]
      rw [show ((m.dropPermit owner).modify owner.key (·.drop)).state =
        (m.dropPermit owner).state from rfl, dropPermit_items]
      abel
  | @publish pc owner result closing =>
      refine @OwnershipChange.publish _ _ _ _ owner result ?_ rfl
      simp only [reached, reachedAfter, Thread.items, closingItems_cons, Pool.tally_nil, add_zero]
      rw [show (m.modify owner.key (·.publish result)).state = m.state from rfl]
      abel
  | pc h =>
      cases h with
      | submit h => exact h.ownership
      | manager h => exact h.ownership
      | cancel h => exact h.ownership
      | shutdown h => exact h.ownership
      | task h => exact h.ownership

/-! ### Where the owners of a thread are -/

/-- The owner a thread took from `ready`, before it is closed. -/
def Pc.taken? : Pc → Option TaskOwner
  | .decided _ dispatch => dispatch
  | pc => pc.running?

/-- An owner at this place was dispatched. -/
def Place.Taken : Place → Prop
  | .dispatched | .running | .refused | .abandoned => True
  | _ => False

/-- An owner at this place is on its way out. -/
def Place.Withdrawn : Place → Prop
  | .detached | .closing _ => True
  | _ => False

theorem Place.Withdrawn.not_taken {place : Place} (h : place.Withdrawn) : ¬ place.Taken := by
  cases place <;> simp_all [Place.Withdrawn, Place.Taken]

/-- A function's owners were dispatched, or are detached. -/
theorem Pc.mem_items {pc : Pc} {i : Item} (h : i ∈ pc.items) :
    i.place.Taken ∧ pc.taken? = some i.owner ∨ i.place = .detached := by
  cases pc with
  | decided exit dispatch =>
      obtain ⟨howner, hplace⟩ := mem_itemsAt.mp h
      refine .inl ⟨?_, by simpa [Pc.taken?] using howner⟩
      rw [hplace]
      cases exit <;> trivial
  | task owner =>
      obtain ⟨howner, hplace⟩ := mem_itemsAt.mp h
      rw [hplace]
      exact .inl ⟨trivial, by simpa [Pc.taken?, Pc.running?, eq_comm] using howner⟩
  | refused owner =>
      obtain ⟨howner, hplace⟩ := mem_itemsAt.mp h
      rw [hplace]
      exact .inl ⟨trivial, by simpa [Pc.taken?, Pc.running?, eq_comm] using howner⟩
  | executing owner session =>
      obtain ⟨howner, hplace⟩ := mem_itemsAt.mp h
      rw [hplace]
      exact .inl ⟨trivial, by simpa [Pc.taken?, Pc.running?, eq_comm] using howner⟩
  | authorizing owner session =>
      obtain ⟨howner, hplace⟩ := mem_itemsAt.mp h
      rw [hplace]
      exact .inl ⟨trivial, by simpa [Pc.taken?, Pc.running?, eq_comm] using howner⟩
  | collect now expired todo due => exact .inr (mem_itemsAt.mp h).2
  | promote expired due => exact .inr (mem_itemsAt.mp h).2
  | cancelMarked key reason outcome owner caller => exact .inr (mem_itemsAt.mp h).2
  | classify tally drained todo => exact .inr (mem_itemsAt.mp h).2
  | classifyMark tally drained key todo => exact .inr (mem_itemsAt.mp h).2
  | _ => exact absurd h (Multiset.notMem_zero i)

theorem mem_closingItems {closing : List Closing} {i : Item} (h : i ∈ closingItems closing) :
    ∃ stage, i.place = .closing stage := by
  obtain ⟨c, -, rfl⟩ := List.mem_map.mp (Multiset.mem_coe.mp h)
  exact ⟨c.stage, rfl⟩

/-- An owner lies in one of the lists, was taken from `ready`, or is withdrawn. -/
theorem System.mem_items {s : System} {i : Item} (hi : i ∈ s.items) :
    i.place = .waiting ∧ i.owner ∈ s.memory.state.queue ∨
      i.place = .ready ∧ i.owner ∈ s.memory.state.ready ∨
      (∃ t ∈ s.threads, i.place.Taken ∧ t.pc.taken? = some i.owner) ∨ i.place.Withdrawn := by
  rcases Multiset.mem_add.mp hi with hstate | hthread
  · rcases Multiset.mem_add.mp hstate with hq | hr
    · exact .inl (mem_itemsAt.mp hq).symm
    · exact .inr (.inl (mem_itemsAt.mp hr).symm)
  · obtain ⟨t, ht, hitem⟩ := Pool.mem_tally.mp hthread
    rcases Multiset.mem_add.mp hitem with hpc | hclosing
    · rcases Pc.mem_items hpc with htaken | hdetached
      · exact .inr (.inr (.inl ⟨t, ht, htaken⟩))
      · rw [hdetached]
        exact .inr (.inr (.inr trivial))
    · obtain ⟨stage, hstage⟩ := mem_closingItems hclosing
      rw [hstage]
      exact .inr (.inr (.inr trivial))

/-- Nothing is at `waiting` or `ready` when the lists are empty. -/
theorem System.not_pending {s : System} {i : Item} (hi : i ∈ s.items)
    (queue : s.memory.state.queue = []) (ready : s.memory.state.ready = []) :
    i.place ≠ .waiting ∧ i.place ≠ .ready := by
  rcases System.mem_items hi with ⟨-, hmem⟩ | ⟨-, hmem⟩ | ⟨-, -, htaken, -⟩ | hwithdrawn
  · rw [queue] at hmem
    cases hmem
  · rw [ready] at hmem
    cases hmem
  · refine ⟨fun h => ?_, fun h => ?_⟩ <;> rw [h] at htaken <;> cases htaken
  · refine ⟨fun h => ?_, fun h => ?_⟩ <;> rw [h] at hwithdrawn <;> cases hwithdrawn

end Libdeno.Executor
