import Libdeno.Executor.Admission

/-!
# Libdeno.Executor.Lifecycle

An execution's way from admission to its one published result. `Evolves` is what any
step of any thread may do to an execution; lifecycle, reason and result of a run
follow from it. That the result agrees with the lifecycle, and that the permit is
gone by then, is part of `Ownership`.
-/

namespace Libdeno.Executor

open Supervisor

variable {config : AdmissionConfig} {m m' : Memory} {s s' : System}

/-! ### How executions evolve -/

/-- What steps may do to an execution. -/
structure Evolves (e e' : Execution) : Prop where
  control : Relation.ReflTransGen ControlChange e.control e'.control
  completion : ∀ result, e.completion = some result → e'.completion = some result
  entered : e.entered = true → e'.entered = true

theorem Evolves.refl (e : Execution) : Evolves e e := ⟨.refl, fun _ h => h, id⟩

theorem Evolves.trans {e e' e'' : Execution} (first : Evolves e e') (second : Evolves e' e'') :
    Evolves e e'' :=
  ⟨first.control.trans second.control, fun r h => second.completion r (first.completion r h),
    fun h => second.entered (first.entered h)⟩

theorem entered_withControl {e : Execution} (control : TaskControl) (h : e.entered = true) :
    (e.withControl control).entered = true := by
  simp [Execution.withControl, h]

theorem evolves_of_interference {e e' : Execution} (h : Interference e e') : Evolves e e' := by
  induction h with
  | refl => exact .refl e
  | tail _ last ih =>
      obtain ⟨-, hcompletion, -, -, -, -⟩ := last.fixed
      refine ih.trans ⟨.single last.control, fun r h => hcompletion.trans h, fun h => ?_⟩
      cases last with
      | mark reason => exact entered_withControl _ h
      | insertReason reason => exact h
      | storeRequested => exact h

theorem Advance.entered {owner : TaskOwner} {e e' : Execution} {place place' : Place}
    (h : Advance owner e place e' place') (before : e.entered = true) : e'.entered = true := by
  cases h <;> first | exact before | exact entered_withControl _ before

section Changes

variable {c c' : TaskControl}

theorem changes_forward (h : Relation.ReflTransGen ControlChange c c') (inv : c.Coherent) :
    c'.Coherent ∧ c.lifecycle.Forward c'.lifecycle := by
  induction h with
  | refl => exact ⟨inv, .refl _⟩
  | tail _ last ih => exact ⟨last.coherent ih.1, ih.2.trans (last.forward ih.1)⟩

/-- An execution that may not start: it is terminal or has a reason. -/
def TaskControl.Barred (c : TaskControl) : Prop :=
  c.lifecycle.isTerminal = true ∨ c.cancelReason ≠ none

theorem changes_backend (h : Relation.ReflTransGen ControlChange c c') :
    c'.backend = c.backend := by
  induction h with
  | refl => rfl
  | tail _ last ih => rw [last.fixed.2.1, ih]

/-- The first reason stays. -/
theorem changes_reason_eq (h : Relation.ReflTransGen ControlChange c c') {reason : CancelReason}
    (before : c.cancelReason = some reason) : c'.cancelReason = some reason := by
  induction h with
  | refl => exact before
  | tail _ last ih => exact last.reason_stable ih

theorem changes_reason (h : Relation.ReflTransGen ControlChange c c')
    (some : c.cancelReason ≠ none) : c'.cancelReason ≠ none := by
  obtain ⟨reason, hreason⟩ := Option.ne_none_iff_exists'.mp some
  rw [changes_reason_eq h hreason]
  exact Option.some_ne_none _

theorem changes_barred (h : Relation.ReflTransGen ControlChange c c') (barred : c.Barred) :
    c'.Barred := by
  rcases barred with hterminal | hreason
  · refine .inl ?_
    induction h with
    | refl => exact hterminal
    | tail _ last ih => rw [(last.terminal_stable ih).1, ih]
  · exact .inr (changes_reason h hreason)

end Changes

/-- Every step lets every known execution evolve. -/
theorem OwnershipChange.evolves {items items' others : Multiset Item}
    (change : OwnershipChange m items m' items') (inv : Ownership m (items + others)) :
    ∀ key < m.state.submissions, Evolves (m.tasks key) (m'.tasks key) := by
  intro key hkey
  have hupdate : ∀ (k : Nat) (e' : Execution), Evolves (m.tasks k) e' →
      Evolves (m.tasks key) (Function.update m.tasks k e' key) := fun k e' h => by
    by_cases hk : key = k
    · rw [hk, Function.update_self]
      exact h
    · rw [Function.update_of_ne hk]
      exact .refl _
  cases change with
  | relocate _ _ hinterference _ => exact evolves_of_interference (hinterference key)
  | admission runner deadline permit place htasks _ _ _ =>
      rw [htasks, Function.update_of_ne (Nat.ne_of_lt hkey)]
      exact .refl _
  | @advance owner place place' e' rest hadvance hitems hitems' hm =>
      subst hitems hm
      have hfits := inv.fits ⟨owner, place⟩ (by simp)
      refine hupdate _ _ ⟨.single (hadvance.control hfits.place), fun r h => ?_,
        hadvance.entered⟩
      rw [hadvance.fixed.2.1]
      exact h
  | promote _ _ htasks _ _ =>
      rw [htasks]
      exact hupdate _ _ ⟨.single (markAccepted_change _), fun r h => h, entered_withControl _⟩
  | release _ _ hm =>
      rw [hm, dropPermit_tasks]
      exact .refl _
  | drop _ hm =>
      rw [hm, Memory.modify, dropPermit_tasks]
      exact hupdate _ _ ⟨.refl, fun r h => h, id⟩
  | @publish owner result hitems hm =>
      rw [hm]
      refine hupdate _ _ ⟨.refl, fun r h => ?_, id⟩
      simp only [Execution.publish, h, Option.getD_some]

theorem ThreadStep.evolves {t t' : Thread} {spawned before after : List Thread}
    (step : ThreadStep config m t m' t' spawned)
    (inv : Ownership m (System.items ⟨m, before ++ t :: after⟩)) :
    ∀ key < m.state.submissions, Evolves (m.tasks key) (m'.tasks key) := by
  rw [System.items, Pool.tally_split, ← add_assoc] at inv
  exact step.ownership.evolves inv

theorem SystemStep.evolves (step : SystemStep config s s') (inv : Ownership s.memory s.items) :
    ∀ key < s.memory.state.submissions, Evolves (s.memory.tasks key) (s'.memory.tasks key) := by
  obtain ⟨items, items', others, hbefore, -, change⟩ := step.ownership
  rw [hbefore] at inv
  exact change.evolves inv

/-- A run lets every known execution evolve. -/
theorem Run.evolves (run : Transition.Run (SystemStep config) s s')
    (reachable : ExecutorReachable config s) {key : Nat}
    (known : key < s.memory.state.submissions) :
    Evolves (s.memory.tasks key) (s'.memory.tasks key) ∧
      key < s'.memory.state.submissions := by
  induction run with
  | refl => exact ⟨.refl _, known⟩
  | tail before last ih =>
      have mid : ExecutorReachable config _ := Transition.Reachable.run reachable before
      exact ⟨ih.1.trans (last.evolves mid.ownership key ih.2),
        Nat.lt_of_lt_of_le ih.2 last.scheduler.submissions⟩

/-! ### Answers of `cancel` -/

def Caller.keys : Caller → List Nat
  | .handle => []
  | .shutdown _ todo => todo

/-- The executions a thread is about to cancel through `request_cancel`. -/
def Pc.cancelKeys : Pc → List Nat
  | .cancel key _ caller | .cancelling key _ caller | .cancelMarked key _ _ _ caller
  | .cancelReturn key _ caller => key :: caller.keys
  | .collectStarted _ todo found => todo ++ found
  | .cancelStarted _ todo => todo
  | _ => []

/-- The execution for which `request_cancel` will answer `Requested`. -/
def Pc.requested? : Pc → Option Nat
  | .cancelMarked key _ outcome _ _ | .cancelReturn key outcome _ =>
      if outcome = .requested then some key else none
  | _ => none

/-- A thread cancels known executions, and answers `Requested` where a reason was
recorded. -/
def CancelsKnown (m : Memory) (t : Thread) : Prop :=
  (∀ key ∈ t.pc.cancelKeys, key < m.state.submissions) ∧
    ∀ key, t.pc.requested? = some key →
      key < m.state.submissions ∧ (m.control key).cancelReason ≠ none

theorem CancelsKnown.of_nil {t : Thread} (keys : t.pc.cancelKeys = [])
    (requested : t.pc.requested? = none) : CancelsKnown m t := by
  refine ⟨fun key h => ?_, fun key h => ?_⟩
  · rw [keys] at h
    cases h
  · rw [requested] at h
    cases h

/-- The executions in the active map are known. -/
theorem Ownership.active_known {items : Multiset Item} (inv : Ownership m items) {key : Nat}
    (h : key ∈ m.state.active.keys) :
    key < m.state.submissions ∧ ∃ i ∈ items, i.key = key ∧ i.owner.permit = some .active := by
  obtain ⟨entry, hentry, rfl⟩ := List.mem_map.mp h
  obtain ⟨owner, howner, hpermit, rfl⟩ :=
    mem_heldPermits.mp (Multiset.mem_of_le inv.permits (Multiset.mem_coe.mpr hentry))
  obtain ⟨i, hi, rfl⟩ := Multiset.mem_map.mp howner
  exact ⟨(inv.ids i.key (inv.fits i hi).admitted).2, i, hi, rfl, hpermit⟩

theorem CancelStep.cancelsKnown {pc : Pc} {t' : Thread} {spawned : List Thread}
    (step : CancelStep m pc m' t' spawned) (inv : CancelsKnown m { pc }) :
    CancelsKnown m' t' ∧ spawned = [] := by
  obtain ⟨hkeys, hrequested⟩ := inv
  cases step with
  | @terminal key reason caller hlock hterminal =>
      exact ⟨⟨hkeys, fun k h => by simp [Pc.requested?] at h⟩, rfl⟩
  | @lock key reason caller hlock hopen => exact ⟨⟨hkeys, fun k h => by cases h⟩, rfl⟩
  | @mark key reason caller owner state outcome control htake hmark =>
      obtain ⟨-, hsubmissions⟩ := takeOwner_active htake
      refine ⟨⟨fun k h => ?_, fun k h => ?_⟩, rfl⟩
      · show k < state.submissions
        rw [hsubmissions]
        exact hkeys k h
      · have hout : outcome = .requested := by
          by_contra hne
          simp [Pc.requested?, hne] at h
        obtain rfl : key = k := by simpa [Pc.requested?, hout] using h
        refine ⟨?_, ?_⟩
        · show key < state.submissions
          rw [hsubmissions]
          exact hkeys key (List.mem_cons_self)
        · have hcontrol : (({ m.setControl key control with state } : Memory).control key) =
              control := by
            simp [Memory.control, Memory.setControl, Execution.withControl]
          have hspec := (@markCancelling_requested (m.control key) reason
            (by rw [hmark, hout])).2.2
          rw [hmark] at hspec
          change control = _ at hspec
          rw [hcontrol, hspec]
          exact Option.some_ne_none _
  | @unlock key reason outcome owner caller => exact ⟨⟨hkeys, hrequested⟩, rfl⟩
  | @answer key outcome caller =>
      cases caller with
      | handle => exact ⟨.of_nil rfl rfl, rfl⟩
      | shutdown tally todo =>
          exact ⟨⟨fun k h => hkeys k (List.mem_cons_of_mem _ h), fun k h => by cases h⟩, rfl⟩

theorem ShutdownStep.cancelsKnown {pc : Pc} {t' : Thread} {spawned : List Thread}
    {items : Multiset Item} (step : ShutdownStep m pc m' t' spawned)
    (ownership : Ownership m items) (inv : CancelsKnown m { pc }) :
    CancelsKnown m' t' ∧ spawned = [] := by
  obtain ⟨hkeys, -⟩ := inv
  cases step with
  | @graceOver tally todo hlock htodo =>
      refine ⟨⟨fun k h => ?_, fun k h => by cases h⟩, rfl⟩
      have hmem : k ∈ todo := by simpa [Pc.cancelKeys] using h
      exact (ownership.active_known (htodo.subset hmem)).1
  | @collect tally key todo found =>
      refine ⟨⟨fun k h => hkeys k ?_, fun k h => by cases h⟩, rfl⟩
      simp only [Pc.cancelKeys, List.mem_append, List.mem_cons] at h ⊢
      split at h
      · simp only [List.mem_append, List.mem_singleton] at h
        tauto
      · tauto
  | @collected tally found =>
      exact ⟨⟨fun k h => hkeys k (by simpa [Pc.cancelKeys] using h), fun k h => by cases h⟩, rfl⟩
  | @skipTerminal tally key todo hterminal =>
      exact ⟨⟨fun k h => hkeys k (List.mem_cons_of_mem _ h), fun k h => by cases h⟩, rfl⟩
  | @cancel tally key todo hopen =>
      exact ⟨⟨hkeys, fun k h => by cases h⟩, rfl⟩
  | _ => exact ⟨.of_nil rfl rfl, rfl⟩

/-- What was known of a thread stays known. -/
theorem CancelsKnown.stable {t : Thread} (inv : CancelsKnown m t)
    (submissions : m.state.submissions ≤ m'.state.submissions)
    (evolves : ∀ key < m.state.submissions, Evolves (m.tasks key) (m'.tasks key)) :
    CancelsKnown m' t := by
  refine ⟨fun key h => Nat.lt_of_lt_of_le (inv.1 key h) submissions, fun key h => ?_⟩
  obtain ⟨hlt, hreason⟩ := inv.2 key h
  exact ⟨Nat.lt_of_lt_of_le hlt submissions, changes_reason (evolves key hlt).control hreason⟩

theorem ThreadStep.cancelsKnown {t t' : Thread} {spawned before after : List Thread}
    (step : ThreadStep config m t m' t' spawned)
    (ownership : Ownership m (System.items ⟨m, before ++ t :: after⟩)) (inv : CancelsKnown m t) :
    CancelsKnown m' t' ∧ ∀ u ∈ spawned, CancelsKnown m' u := by
  have hsame : CancelsKnown m' t :=
    inv.stable step.scheduler.submissions (step.evolves ownership)
  cases step with
  | pc h =>
      cases h with
      | submit h =>
          cases h with
          | managerSpawned =>
              exact ⟨.of_nil rfl rfl, List.forall_mem_singleton.mpr (.of_nil rfl rfl)⟩
          | _ => exact ⟨.of_nil rfl rfl, by simp⟩
      | manager h =>
          cases h with
          | spawnTask =>
              exact ⟨.of_nil rfl rfl, List.forall_mem_singleton.mpr (.of_nil rfl rfl)⟩
          | _ => exact ⟨.of_nil rfl rfl, by simp⟩
      | cancel h =>
          obtain ⟨hknown, rfl⟩ := h.cancelsKnown inv
          exact ⟨hknown, by simp⟩
      | shutdown h =>
          obtain ⟨hknown, rfl⟩ := h.cancelsKnown ownership inv
          exact ⟨hknown, by simp⟩
      | task h => cases h <;> exact ⟨.of_nil rfl rfl, by simp⟩
  | _ => exact ⟨hsame, by simp⟩

theorem ExecutorReachable.cancelsKnown (h : ExecutorReachable config s) :
    ∀ t ∈ s.threads, CancelsKnown s.memory t := by
  refine Transition.Reachable.invariant_of
    (P := fun s : System => ∀ t ∈ s.threads, CancelsKnown s.memory t)
    (fun _ h => ExecutorReachable.ownership h) ?_ ?_ h
  · rintro s rfl t ht
    cases ht
  · intro s s' ownership inv step
    refine Pool.Step.threads (K := fun s : System => Ownership s.memory s.items)
      (fun known h inv => h.cancelsKnown known inv)
      (fun known _ h _ inv => inv.stable h.scheduler.submissions (h.evolves known))
      (fun {m m' spawned threads} known h => ?_) step ownership inv
    cases h with
    | tick later hlater => exact ⟨fun u _ inv => inv, by simp⟩
    | submit runner deadline =>
        exact ⟨fun u _ inv => inv, List.forall_mem_singleton.mpr (.of_nil rfl rfl)⟩
    | cancel key hadmitted =>
        refine ⟨fun u _ inv => inv, fun u hu => ?_⟩
        obtain rfl := List.mem_singleton.mp hu
        refine ⟨fun k hk => ?_, fun k hk => by cases hk⟩
        obtain rfl : k = key := by simpa [Pc.cancelKeys, Caller.keys] using hk
        exact (known.ids k hadmitted).2
    | shutdown =>
        exact ⟨fun u _ inv => inv, List.forall_mem_singleton.mpr (.of_nil rfl rfl)⟩

/-- Only the answers of handles are added to the log. -/
theorem ThreadStep.cancelled {t t' : Thread} {spawned : List Thread}
    (step : ThreadStep config m t m' t' spawned) :
    m'.cancelled = m.cancelled ∨ ∃ key outcome, t.pc = .cancelReturn key outcome .handle ∧
      m'.cancelled = m.cancelled ++ [(key, outcome)] := by
  have hdrop : ∀ owner : TaskOwner, (m.dropPermit owner).cancelled = m.cancelled := by
    intro owner
    unfold Memory.dropPermit
    split <;> rfl
  cases step with
  | release hlock => exact .inl (hdrop _)
  | drop hlock => exact .inl (hdrop _)
  | pc h =>
      cases h with
      | submit h => cases h <;> exact .inl rfl
      | manager h => cases h <;> exact .inl rfl
      | cancel h =>
          cases h with
          | @answer key outcome caller =>
              cases caller with
              | handle => exact .inr ⟨key, outcome, rfl, rfl⟩
              | shutdown tally todo => exact .inl rfl
          | _ => exact .inl rfl
      | shutdown h => cases h <;> exact .inl rfl
      | task h => cases h <;> exact .inl rfl
  | _ => exact .inl rfl

/-- An execution for which a `cancel` returned `Requested` has a reason. -/
theorem ExecutorReachable.requested (h : ExecutorReachable config s) :
    ∀ key, (key, .requested) ∈ s.memory.cancelled →
      key < s.memory.state.submissions ∧ (s.memory.control key).cancelReason ≠ none := by
  refine Transition.Reachable.invariant_of
    (P := fun s : System => ∀ key, (key, .requested) ∈ s.memory.cancelled →
      key < s.memory.state.submissions ∧ (s.memory.control key).cancelReason ≠ none)
    (I := ExecutorReachable config) (fun s h => h) ?_ ?_ h
  · rintro s rfl key hkey
    cases hkey
  · intro s s' reachable inv step key hkey
    have hknown : key < s.memory.state.submissions ∧
        (s.memory.control key).cancelReason ≠ none := by
      cases step with
      | @thread m m' t t' spawned before after h =>
          rcases h.cancelled with hsame | ⟨k, outcome, hpc, hlog⟩
          · exact inv key (hsame ▸ hkey)
          · rw [hlog, List.mem_append, List.mem_singleton] at hkey
            rcases hkey with hold | hnew
            · exact inv key hold
            · obtain ⟨rfl, rfl⟩ := Prod.mk.inj hnew
              refine (reachable.cancelsKnown t (by simp)).2 key ?_
              rw [hpc]
              rfl
      | environment threads h =>
          cases h with
          | _ => exact inv key hkey
    have hevolves := step.evolves reachable.ownership key hknown.1
    exact ⟨Nat.lt_of_lt_of_le hknown.1 step.scheduler.submissions,
      changes_reason hevolves.control hknown.2⟩

/-! ### The one result -/

/-- The owner of a terminal execution is about to publish what agrees with it. -/
theorem Item.Ok.terminal {e : Execution} {i : Item} (item : i.Ok e)
    (terminal : e.control.lifecycle.isTerminal = true) :
    ∃ result, (i.place = .closing (.release (some result)) ∨
      i.place = .closing (.publish result)) ∧ e.Settles result := by
  have hplace := item.place
  have hopen : ¬ e.Open := fun h => by
    rw [h.1] at terminal
    cases terminal
  cases hi : i.place with
  | waiting => exact absurd (hi ▸ hplace : PlaceOk e i.owner .waiting).2.1 hopen
  | ready => exact absurd (hi ▸ hplace : PlaceOk e i.owner .ready).2.1 hopen
  | dispatched => exact absurd (hi ▸ hplace : PlaceOk e i.owner .dispatched).2.1 hopen
  | running => exact absurd (hi ▸ hplace : PlaceOk e i.owner .running).2 hopen
  | refused => exact absurd (hi ▸ hplace : PlaceOk e i.owner .refused).2 hopen
  | detached => exact absurd (hi ▸ hplace : PlaceOk e i.owner .detached).2 hopen
  | abandoned => exact absurd (hi ▸ hplace : PlaceOk e i.owner .abandoned).2 hopen
  | closing stage =>
      rw [hi] at hplace
      cases stage with
      | mark lifecycle result => exact absurd hplace.2.1 hopen
      | release result =>
          cases result with
          | none => exact absurd hplace.2 hopen
          | some result => exact ⟨result, .inl rfl, hplace.2⟩
      | publish result => exact ⟨result, .inr rfl, hplace.2⟩

/-- A published execution has no owner left, and no entry in the active map. -/
theorem Ownership.published {items : Multiset Item} (inv : Ownership m items) {key : Nat}
    {result : Outcome} (h : (m.tasks key).completion = some result) :
    (∀ i ∈ items, i.key ≠ key) ∧ key ∉ m.state.active.keys := by
  have hgone : ∀ i ∈ items, i.key ≠ key := fun i hi hkey => by
    have hunset := (inv.fits i hi).unset
    rw [hkey, h] at hunset
    cases hunset
  refine ⟨hgone, fun hactive => ?_⟩
  obtain ⟨-, i, hi, hkey, -⟩ := inv.active_known hactive
  exact hgone i hi hkey

/-- A lifecycle leaves Cancelling only for a terminal state. -/
theorem ExecutionState.Forward.cancelling {a : ExecutionState}
    (h : ExecutionState.cancelling.Forward a) : a = .cancelling ∨ a.isTerminal = true := by
  rcases h with rfl | h
  · exact .inl rfl
  · cases a <;> simp_all [ExecutionState.rank, ExecutionState.isTerminal]

/-- A terminal lifecycle is left for none. -/
theorem ExecutionState.Forward.terminal {a b : ExecutionState} (h : a.Forward b)
    (terminal : a.isTerminal = true) : b = a := by
  rcases h with rfl | h
  · rfl
  · cases a <;> cases b <;> simp_all [ExecutionState.rank, ExecutionState.isTerminal]

/-- **Terminal publication.** For every admitted execution of a reachable state: from
here on its lifecycle only moves forward, leaves Cancelling only for a terminal state
and a terminal state for none, and a published result stays; `publish` was called
once if the cell is set and never if not, in which case exactly one owner is left to do
so; the owner of a terminal execution is about to publish; a set cell means that the
execution is terminal, Completed exactly for a result that is Ok, that no owner holds a
permit for it and that none is in the active map; a result that comes from
`resolve_backend_result` is the recorded reason's failure unless it was kept; and after
a `cancel` returned `Requested` the execution is never Completed. -/
theorem terminal_publication (config : AdmissionConfig) (s : System)
    (reachable : ExecutorReachable config s) (key : Nat)
    (admitted : (s.memory.tasks key).admitted = true) :
    (∀ s', Transition.Run (SystemStep config) s s' →
      (s.memory.control key).lifecycle.Forward (s'.memory.control key).lifecycle ∧
      ((s.memory.control key).lifecycle = .cancelling →
        (s'.memory.control key).lifecycle = .cancelling ∨
          (s'.memory.control key).lifecycle.isTerminal = true) ∧
      ((s.memory.control key).lifecycle.isTerminal = true →
        (s'.memory.control key).lifecycle = (s.memory.control key).lifecycle) ∧
      ∀ result, (s.memory.tasks key).completion = some result →
        (s'.memory.tasks key).completion = some result) ∧
    (s.memory.tasks key).published =
      (if (s.memory.tasks key).completion.isSome then 1 else 0) ∧
    ((s.memory.tasks key).completion = none → (s.items.map Item.key).count key = 1) ∧
    ((s.memory.tasks key).completion = none →
      (s.memory.control key).lifecycle.isTerminal = true →
      ∃ i ∈ s.items, i.key = key ∧ ∃ result, i.place = .closing (.release (some result)) ∨
        i.place = .closing (.publish result)) ∧
    (∀ result, (s.memory.tasks key).completion = some result →
      (s.memory.control key).lifecycle.isTerminal = true ∧
      (Outcome.isOk result = true ↔ (s.memory.control key).lifecycle = .completed) ∧
      (∀ i ∈ s.items, i.key ≠ key) ∧ key ∉ s.memory.state.active.keys ∧
      ∀ backendResult, (s.memory.tasks key).resolved = some backendResult →
        ResolvedFrom (s.memory.control key) backendResult (s.memory.control key).backend
          result) ∧
    ((key, .requested) ∈ s.memory.cancelled →
      ∀ s', Transition.Run (SystemStep config) s s' →
        (s'.memory.control key).lifecycle ≠ .completed) := by
  have ownership := reachable.ownership
  have ok := ownership.executions key
  have hknown := (ownership.ids key admitted).2
  refine ⟨fun s' run => ?_, ok.published, reachable.owned_once admitted, fun hunset hterminal => ?_,
    fun result hresult => ?_, fun hrequested s' run hcompleted => ?_⟩
  · obtain ⟨hevolves, -⟩ := Run.evolves run reachable hknown
    have hforward := (changes_forward hevolves.control ok.coherent).2
    refine ⟨hforward, fun hcancelling => ?_, hforward.terminal, hevolves.completion⟩
    rw [Memory.control] at hcancelling
    rw [hcancelling] at hforward
    exact hforward.cancelling
  · have hmem := ownership.owned key admitted hunset (reachable.kept.kept key)
    obtain ⟨i, hi, rfl⟩ := Multiset.mem_map.mp hmem
    obtain ⟨result, hplace, -⟩ := (ownership.fits i hi).terminal hterminal
    exact ⟨i, hi, rfl, result, hplace⟩
  · obtain ⟨hterminal, hok, hresolved⟩ := ok.result result hresult
    obtain ⟨hgone, hactive⟩ := ownership.published hresult
    exact ⟨hterminal, hok, hgone, hactive, hresolved⟩
  · obtain ⟨hevolves, -⟩ := Run.evolves run reachable hknown
    have hreason := changes_reason hevolves.control (reachable.requested key hrequested).2
    have hcoherent := (changes_forward hevolves.control ok.coherent).1
    have hcases := hcoherent.reason hreason
    rw [Memory.control] at hcompleted
    rw [hcompleted] at hcases
    simp at hcases

/-- A task is admitted, and cancelled before a manager ran. -/
def sampleReady : Memory :=
  { Memory.initial with
    state :=
      { SchedulerState.new with
        ready := [⟨1, 0, .inProcess, none, some .active⟩]
        active := [(1, 0)]
        nextId := 2
        submissions := 1 }
    tasks := Function.update (fun _ => .absent) 0 (.fresh 1 .inProcess none .active) }

/-- The execution when `mark_cancelling` and both writes to its context are done. -/
def sampleMarked : Memory :=
  ((sampleReady.setControl 0 ((sampleReady.control 0).markCancelling .user).2).modify 0
    (·.insertReason .user)).modify 0 (·.storeRequested)

def sampleFailure : Outcome := .error ((sampleMarked.control 0).reasonFailure .user)

/-- The result is published and `cancel` has returned. -/
def sampleCancelled : System where
  memory :=
    { (sampleMarked.setControl 0 ((sampleMarked.control 0).markTerminal .terminated).2).modify 0
        (·.publish sampleFailure) with
      state := { SchedulerState.new with nextId := 2, submissions := 1 }
      cancelled := [(0, .requested)] }
  threads := [{ pc := .ensureManager }, { pc := .done }]

theorem sampleCancelled_reachable : ExecutorReachable sampleConfig sampleCancelled := by
  refine ⟨System.initial, rfl, ?_⟩
  refine .head (.environment [] (.submit .inProcess none)) ?_
  refine .head (.thread [] [] (.pc (.submit (.admitted rfl rfl)))) ?_
  refine .head (.environment [_] (.cancel 0 rfl)) ?_
  refine .head (.thread [_] [] (.pc (.cancel (.lock rfl rfl)))) ?_
  refine .head (.thread [_] [] (.pc (.cancel (.mark rfl rfl)))) ?_
  refine .head (.thread [_] [] .recordReason) ?_
  refine .head (.thread [_] [] .storeRequested) ?_
  refine .head (.thread [_] [] (.pc (.cancel .unlock))) ?_
  refine .head (.thread [_] [] (.markTerminal rfl)) ?_
  refine .head (.thread [_] [] (.release fun _ => rfl)) ?_
  refine .head (.thread [_] [] .publish) ?_
  exact .head (.thread [_] [] (.pc (.cancel .answer))) .refl

/-- The sample's one result is the user's cancellation, with no permit left. -/
theorem terminal_publication_cancelled :
    (sampleCancelled.memory.tasks 0).published = 1 ∧
      (sampleCancelled.memory.tasks 0).completion = some sampleFailure ∧
      (sampleCancelled.memory.control 0).lifecycle.isTerminal = true ∧
      0 ∉ sampleCancelled.memory.state.active.keys := by
  obtain ⟨-, hpublished, -, -, hset, -⟩ :=
    terminal_publication sampleConfig sampleCancelled sampleCancelled_reachable 0 rfl
  have hcompletion : (sampleCancelled.memory.tasks 0).completion = some sampleFailure := rfl
  obtain ⟨hterminal, -, -, hactive, -⟩ := hset sampleFailure hcompletion
  rw [hcompletion] at hpublished
  exact ⟨hpublished, hcompletion, hterminal, hactive⟩

end Libdeno.Executor
