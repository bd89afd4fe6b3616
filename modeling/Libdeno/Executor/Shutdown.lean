import Libdeno.Executor.Lifecycle

/-!
# Libdeno.Executor.Shutdown

What holds after the first section of `shutdown`. The section walks over the active
map while tasks keep moving: `Classifies` says that what it has passed is *decided*,
that is, has entered Started or may not start any more. An owner that can still be
started holds an active permit, so before the identifiers wrap around it is in the
map, and at the end of the section everything is decided (`Decided`).

The counters of a report are lists of executions; `Counts` says why no execution is
counted twice.
-/

namespace Libdeno.Executor

open Supervisor

variable {config : AdmissionConfig} {m m' : Memory} {s s' : System}

/-! ### Decided executions -/

/-- The execution has entered Started, or may not start any more. -/
def Execution.Decided (e : Execution) : Prop := e.entered = true ∨ e.control.Barred

theorem Evolves.decided {e e' : Execution} (h : Evolves e e') (decided : e.Decided) :
    e'.Decided :=
  decided.imp h.entered (changes_barred h.control)

/-- An owner that may be started. -/
def Place.Startable : Place → Prop
  | .dispatched | .running => True
  | _ => False

/-! ### Where an item comes from -/

/-- How an item came about in a step from `m` to `m'`. -/
inductive Item.From (m m' : Memory) (i i' : Item) : Prop
  | moved : i'.owner = i.owner → Place.Moves (m.state.accepting = false) i.place i'.place →
      Item.From m m' i i'
  | advanced {e' : Execution} : i'.owner = i.owner →
      Advance i.owner (m.tasks i.key) i.place e' i'.place → Item.From m m' i i'
  | promoted : i.place = .waiting → i' = ⟨i.owner.promote, .ready⟩ →
      m'.control i.key = (m.control i.key).markAccepted → Item.From m m' i i'
  | released (result : Outcome) : i.place = .closing (.release (some result)) →
      i' = ⟨{ i.owner with permit := none }, .closing (.publish result)⟩ → Item.From m m' i i'

section Origin

variable {items items' others : Multiset Item}

/-- Every item is a new owner, or comes from one. -/
theorem OwnershipChange.origin (change : OwnershipChange m items m' items') {i' : Item}
    (h : i' ∈ items' + others) :
    (i'.key = m.state.submissions ∧
      (i'.place = .ready ∧ (m'.control i'.key).lifecycle ≠ .queued ∨
        i'.place = .waiting ∧ i'.owner.permit = some .queued)) ∨
    ∃ i ∈ items + others, i'.key = i.key ∧ Item.From m m' i i' := by
  -- An item that the step leaves alone is its own origin.
  have hsame : ∀ {rest : Multiset Item}, i' ∈ rest → rest ≤ items + others →
      ∃ i ∈ items + others, i'.key = i.key ∧ Item.From m m' i i' := fun hi hle =>
    ⟨i', Multiset.mem_of_le hle hi, rfl, .moved rfl .stay⟩
  have hothers : i' ∈ others → ∃ i ∈ items + others, i'.key = i.key ∧ Item.From m m' i i' :=
    fun hi => hsame hi (Multiset.le_add_left _ _)
  rcases Multiset.mem_add.mp h with hi | hi
  swap
  · exact .inr (hothers hi)
  cases change with
  | relocate _ _ _ hmoves =>
      obtain ⟨i, hi₀, howner, hplace⟩ := Multiset.exists_mem_of_rel_of_mem
        (Multiset.rel_flip.mpr hmoves) hi
      exact .inr ⟨i, Multiset.mem_add.mpr (.inl hi₀), congrArg TaskOwner.key howner,
        .moved howner hplace⟩
  | admission runner deadline permit place htasks _ hitems hpermit =>
      rw [hitems] at hi
      rcases Multiset.mem_add.mp hi with hi | hi
      · obtain rfl := Multiset.mem_singleton.mp hi
        refine .inl ⟨rfl, ?_⟩
        rcases hpermit with ⟨rfl, rfl, -⟩ | ⟨rfl, rfl, -⟩
        · refine .inl ⟨rfl, ?_⟩
          show (m'.tasks m.state.submissions).control.lifecycle ≠ .queued
          rw [htasks, Function.update_self]
          exact fun h => nomatch h
        · exact .inr ⟨rfl, rfl⟩
      · exact .inr (hsame hi (Multiset.le_add_right _ _))
  | @advance owner place place' e' rest hadvance hitems hitems' hm =>
      subst hitems hitems'
      rcases Multiset.mem_add.mp hi with hi | hi
      · obtain rfl := Multiset.mem_singleton.mp hi
        exact .inr ⟨⟨owner, place⟩, by simp, rfl, .advanced rfl hadvance⟩
      · exact .inr (hsame (Multiset.mem_add.mpr (.inr hi)) (Multiset.le_add_right _ _))
  | @promote owner rest hitems hitems' htasks _ _ =>
      subst hitems hitems'
      rcases Multiset.mem_add.mp hi with hi | hi
      · obtain rfl := Multiset.mem_singleton.mp hi
        refine .inr ⟨⟨owner, .waiting⟩, by simp, rfl, .promoted rfl rfl ?_⟩
        show (m'.tasks owner.key).control = _
        rw [htasks, Function.update_self]
        rfl
      · exact .inr (hsame (Multiset.mem_add.mpr (.inr hi)) (Multiset.le_add_right _ _))
  | @release owner result rest hitems hitems' hm =>
      subst hitems hitems'
      rcases Multiset.mem_add.mp hi with hi | hi
      · obtain rfl := Multiset.mem_singleton.mp hi
        exact .inr ⟨⟨owner, .closing (.release (some result))⟩, by simp, rfl,
          .released result rfl rfl⟩
      · exact .inr (hsame (Multiset.mem_add.mpr (.inr hi)) (Multiset.le_add_right _ _))
  | drop hitems _ =>
      rw [hitems]
      exact .inr ⟨i', by simp [hi], rfl, .moved rfl .stay⟩
  | publish hitems _ =>
      rw [hitems]
      exact .inr ⟨i', by simp [hi], rfl, .moved rfl .stay⟩

end Origin

/-! ### Accepted owners -/

/-- An owner that holds an active permit was accepted. -/
def Accepted (m : Memory) (items : Multiset Item) : Prop :=
  ∀ i ∈ items, i.owner.permit = some .active → (m.control i.key).lifecycle ≠ .queued

theorem ExecutionState.Forward.not_queued {a b : ExecutionState} (h : a.Forward b)
    (hne : a ≠ .queued) : b ≠ .queued := by
  rintro rfl
  rcases h with rfl | h
  · exact hne rfl
  · exact Nat.not_lt_zero _ h

/-- Owners stay accepted, and promoted ones become so. -/
theorem OwnershipChange.accepted {items items' others : Multiset Item}
    (change : OwnershipChange m items m' items') (inv : Ownership m (items + others))
    (accepted : Accepted m (items + others)) : Accepted m' (items' + others) := by
  intro i' hi' hpermit
  have hstays : ∀ i ∈ items + others, (m.control i.key).lifecycle ≠ .queued →
      (m'.control i.key).lifecycle ≠ .queued := by
    intro i hi hne
    have hevolves := change.evolves inv i.key (inv.id_eq hi).2
    exact (changes_forward hevolves.control (inv.executions i.key).coherent).2.not_queued hne
  rcases change.origin hi' with ⟨-, hnew⟩ | ⟨i, hi, hkey, hfrom⟩
  · rcases hnew with ⟨-, hne⟩ | ⟨-, hqueued⟩
    · exact hne
    · rw [hqueued] at hpermit
      cases hpermit
  · rw [hkey]
    cases hfrom with
    | moved howner _ => exact hstays i hi (accepted i hi (howner ▸ hpermit))
    | advanced howner _ => exact hstays i hi (accepted i hi (howner ▸ hpermit))
    | promoted _ _ hcontrol =>
        rw [hcontrol]
        unfold TaskControl.markAccepted
        split
        · exact fun h => nomatch h
        · assumption
    | released result _ hi' =>
        rw [hi'] at hpermit
        cases hpermit

theorem ExecutorReachable.accepted (h : ExecutorReachable config s) :
    Accepted s.memory s.items := by
  refine Transition.Reachable.invariant_of (P := fun s : System => Accepted s.memory s.items)
    (fun _ h => ExecutorReachable.ownership h) ?_ ?_ h
  · rintro s rfl i hi
    exact absurd hi (Multiset.notMem_zero i)
  · intro s s' ownership inv step
    obtain ⟨items, items', others, hbefore, hafter, change⟩ := step.ownership
    rw [hbefore] at ownership inv
    rw [hafter]
    exact change.accepted ownership inv

/-- An accepted execution that is not AcceptedNotStarted is decided. -/
theorem Execution.Ok.decided {e : Execution} (ok : e.Ok) (accepted : e.control.lifecycle ≠ .queued)
    (other : e.control.lifecycle ≠ .acceptedNotStarted) : e.Decided := by
  cases hl : e.control.lifecycle with
  | queued => exact absurd hl accepted
  | acceptedNotStarted => exact absurd hl other
  | started => exact .inl (ok.entered hl)
  | cancelling => exact .inr (.inr (ok.coherent.cancelling hl))
  | terminated => exact .inr (.inl (by rw [hl]; rfl))
  | completed => exact .inr (.inl (by rw [hl]; rfl))
  | failed => exact .inr (.inl (by rw [hl]; rfl))

/-! ### The classification -/

/-- The active executions a `shutdown` still has to classify. -/
def Pc.toClassify? : Pc → Option (List Nat)
  | .classify _ _ todo => some todo
  | .classifyMark _ _ key todo => some (key :: todo)
  | _ => none

/-- What the classification has passed is decided. -/
def Classifies (m : Memory) (t : Thread) : Prop :=
  ∀ todo, t.pc.toClassify? = some todo →
    m.state.Closed ∧ ∀ key ∈ m.state.active.keys, key ∈ todo ∨ (m.tasks key).Decided

theorem Classifies.of_none {t : Thread} (h : t.pc.toClassify? = none) : Classifies m t := by
  intro todo htodo
  rw [h] at htodo
  cases htodo

/-- Other steps keep what a classification has reached. -/
theorem Classifies.stable {t : Thread} {items : Multiset Item} (inv : Classifies m t)
    (ownership : Ownership m items) (change : SchedulerChange config m.state m'.state)
    (evolves : ∀ key < m.state.submissions, Evolves (m.tasks key) (m'.tasks key)) :
    Classifies m' t := by
  intro todo htodo
  obtain ⟨hclosed, hkeys⟩ := inv todo htodo
  refine ⟨change.closed_stable hclosed, fun key hkey => ?_⟩
  have hactive := change.active_subset hclosed hkey
  exact (hkeys key hactive).imp_right (evolves key (ownership.active_known hactive).1).decided

theorem ShutdownStep.classifies {pc : Pc} {t' : Thread} {spawned : List Thread}
    {items : Multiset Item} (step : ShutdownStep m pc m' t' spawned)
    (ownership : Ownership m items) (accepted : Accepted m items)
    (inv : Classifies m { pc }) : Classifies m' t' ∧ spawned = [] := by
  cases step with
  | @close todo hlock htodo =>
      refine ⟨fun todo' h => ⟨⟨rfl, rfl, rfl⟩, fun key hkey => .inl ?_⟩, rfl⟩
      obtain rfl : todo = todo' := Option.some.inj h
      exact htodo.symm.subset hkey
  | @read tally drained key todo haccepted => exact ⟨inv, rfl⟩
  | @skip tally drained key todo hother =>
      refine ⟨fun todo' h => ?_, rfl⟩
      obtain rfl : todo = todo' := Option.some.inj h
      obtain ⟨hclosed, hkeys⟩ := inv (key :: todo) rfl
      refine ⟨hclosed, fun k hk => ?_⟩
      rcases hkeys k hk with hmem | hdecided
      · rcases List.mem_cons.mp hmem with rfl | hmem
        · obtain ⟨-, i, hi, rfl, hpermit⟩ := ownership.active_known hk
          exact .inr ((ownership.executions i.key).decided (accepted i hi hpermit) hother)
        · exact .inl hmem
      · exact .inr hdecided
  | @mark tally drained key todo outcome control hmark =>
      refine ⟨fun todo' h => ?_, rfl⟩
      obtain rfl : todo = todo' := Option.some.inj h
      obtain ⟨hclosed, hkeys⟩ := inv (key :: todo) rfl
      refine ⟨hclosed, fun k hk => ?_⟩
      by_cases hkey : k = key
      · subst hkey
        refine .inr (.inr ?_)
        have hbarred := markCancelling_settles (m.control k) .shutdown
        rw [hmark] at hbarred
        rw [Memory.setControl, Memory.modify_tasks_self]
        exact hbarred
      · rw [Memory.setControl, Memory.modify_tasks_of_ne _ hkey]
        exact (hkeys k hk).imp_left fun hmem => (List.mem_cons.mp hmem).resolve_left hkey
  | _ => exact ⟨.of_none rfl, rfl⟩

theorem ThreadStep.classifies {t t' : Thread} {spawned before after : List Thread}
    (step : ThreadStep config m t m' t' spawned)
    (ownership : Ownership m (System.items ⟨m, before ++ t :: after⟩))
    (accepted : Accepted m (System.items ⟨m, before ++ t :: after⟩)) (inv : Classifies m t) :
    Classifies m' t' ∧ ∀ u ∈ spawned, Classifies m' u := by
  have hsame : Classifies m' t := inv.stable ownership step.scheduler (step.evolves ownership)
  cases step with
  | pc h =>
      cases h with
      | submit h =>
          cases h with
          | managerSpawned =>
              exact ⟨.of_none rfl, List.forall_mem_singleton.mpr (.of_none rfl)⟩
          | _ => exact ⟨.of_none rfl, by simp⟩
      | manager h =>
          cases h with
          | spawnTask => exact ⟨.of_none rfl, List.forall_mem_singleton.mpr (.of_none rfl)⟩
          | _ => exact ⟨.of_none rfl, by simp⟩
      | cancel h =>
          cases h with
          | @answer key outcome caller =>
              cases caller with
              | handle => exact ⟨.of_none rfl, by simp⟩
              | shutdown tally todo => exact ⟨.of_none rfl, by simp⟩
          | _ => exact ⟨.of_none rfl, by simp⟩
      | shutdown h =>
          obtain ⟨hclassifies, rfl⟩ := h.classifies ownership accepted inv
          exact ⟨hclassifies, by simp⟩
      | task h => cases h <;> exact ⟨.of_none rfl, by simp⟩
  | _ => exact ⟨hsame, by simp⟩

theorem ExecutorReachable.classifies (h : ExecutorReachable config s) :
    ∀ t ∈ s.threads, Classifies s.memory t := by
  refine Transition.Reachable.invariant_of
    (P := fun s : System => ∀ t ∈ s.threads, Classifies s.memory t)
    (I := fun s => Ownership s.memory s.items ∧ Accepted s.memory s.items)
    (fun s h => ⟨ExecutorReachable.ownership h, ExecutorReachable.accepted h⟩) ?_ ?_ h
  · rintro s rfl t ht
    cases ht
  · intro s s' known inv step
    refine Pool.Step.threads
      (K := fun s : System => Ownership s.memory s.items ∧ Accepted s.memory s.items)
      (fun known h inv => h.classifies known.1 known.2 inv)
      (fun known _ h _ inv => inv.stable known.1 h.scheduler (h.evolves known.1))
      (fun {m m' spawned threads} known h => ?_) step known inv
    cases h with
    | tick later hlater => exact ⟨fun u _ inv => inv, by simp⟩
    | _ => exact ⟨fun u _ inv => inv, List.forall_mem_singleton.mpr (.of_none rfl)⟩

/-! ### No start after the section -/

/-- What can still be started is decided. -/
def StartableDecided (s : System) : Prop :=
  ∀ i ∈ s.items, i.place.Startable → (s.memory.tasks i.key).Decided

/-- From a closed scheduler nothing new becomes startable. -/
theorem SystemStep.startableDecided (step : SystemStep config s s')
    (ownership : Ownership s.memory s.items) (closed : s.memory.state.Closed)
    (inv : StartableDecided s) : StartableDecided s' := by
  intro i' hi' hstartable
  have hevolves := step.evolves ownership
  obtain ⟨items, items', others, hbefore, hafter, change⟩ := step.ownership
  rw [hafter] at hi'
  rcases change.origin hi' with ⟨-, hnew⟩ | ⟨i, hi, hkey, hfrom⟩
  · rcases hnew with ⟨hplace, -⟩ | ⟨hplace, -⟩
    · rw [hplace] at hstartable
      cases hstartable
    · rw [hplace] at hstartable
      cases hstartable
  · rw [← hbefore] at hi
    have hnot := (System.not_pending hi closed.2.1 closed.2.2).2
    have hbefore : i.place.Startable := by
      cases hfrom with
      | moved _ hplace =>
          generalize i.place = place at hplace hnot
          generalize i'.place = place' at hplace hstartable
          cases hplace with
          | stay => exact hstartable
          | dispatch => exact absurd rfl hnot
          | _ => cases hstartable
      | advanced _ hadvance =>
          generalize i.place = place at hadvance
          generalize i'.place = place' at hadvance hstartable
          cases hadvance <;> trivial
      | promoted _ hi' _ =>
          rw [hi'] at hstartable
          cases hstartable
      | released _ _ hi' =>
          rw [hi'] at hstartable
          cases hstartable
    rw [hkey]
    exact (hevolves i.key (ownership.id_eq hi).2).decided (inv i hi hbefore)

/-- Only the end of a classification ends the section. -/
theorem ThreadStep.sectionEnded {t t' : Thread} {spawned : List Thread}
    (step : ThreadStep config m t m' t' spawned) :
    m'.sectionEnded = m.sectionEnded ∨
      t.pc.toClassify? = some [] ∧ m'.sectionEnded = true := by
  have hdrop : ∀ owner : TaskOwner, (m.dropPermit owner).sectionEnded = m.sectionEnded := by
    intro owner
    unfold Memory.dropPermit
    split <;> rfl
  cases step with
  | release hlock => exact .inl (hdrop _)
  | drop hlock => exact .inl (hdrop _)
  | pc h =>
      cases h with
      | submit h => cases h <;> exact .inl rfl
      | manager h => cases h <;> exact .inl rfl
      | cancel h =>
          cases h with
          | @answer key outcome caller => cases caller <;> exact .inl rfl
          | _ => exact .inl rfl
      | shutdown h =>
          cases h with
          | unlock => exact .inr ⟨rfl, rfl⟩
          | _ => exact .inl rfl
      | task h => cases h <;> exact .inl rfl
  | _ => exact .inl rfl

/-- The section ends in a step, or has ended before. -/
theorem SystemStep.sectionEnded (step : SystemStep config s s')
    (h : s'.memory.sectionEnded = true) :
    s.memory.sectionEnded = true ∨ ∃ t ∈ s.threads, t.pc.toClassify? = some [] := by
  cases step with
  | @thread m m' t t' spawned before after hstep =>
      rcases hstep.sectionEnded with hsame | ⟨hends, -⟩
      · exact .inl (hsame ▸ h)
      · exact .inr ⟨t, by simp, hends⟩
  | environment threads hstep => cases hstep <;> exact .inl h

theorem SystemStep.sectionEnded_stable (step : SystemStep config s s')
    (h : s.memory.sectionEnded = true) : s'.memory.sectionEnded = true := by
  cases step with
  | thread before after hstep =>
      rcases hstep.sectionEnded with hsame | ⟨-, hends⟩
      · exact hsame.trans h
      · exact hends
  | environment threads hstep => cases hstep <;> exact h

theorem ExecutorReachable.section_closed (h : ExecutorReachable config s) :
    s.memory.sectionEnded = true → s.memory.state.Closed := by
  refine Transition.Reachable.invariant_of
    (P := fun s : System => s.memory.sectionEnded = true → s.memory.state.Closed)
    (I := ExecutorReachable config) (fun s h => h) ?_ ?_ h
  · rintro s rfl hended
    cases hended
  · intro s s' reachable inv step hended
    refine step.scheduler.closed_stable ?_
    rcases step.sectionEnded hended with hbefore | ⟨t, ht, hends⟩
    · exact inv hbefore
    · exact (reachable.classifies t ht [] hends).1

/-- At the end of the classification everything that can be started is decided: its
owner holds an active permit, and so it is in the active map. -/
theorem ExecutorReachable.classified (h : ExecutorReachable config s)
    (bound : s.memory.state.submissions < UInt64.size) {t : Thread} (ht : t ∈ s.threads)
    (ends : t.pc.toClassify? = some []) : StartableDecided s := by
  intro i hi hstartable
  have hfits := (h.ownership.fits i hi).place
  have hpermit : i.owner.permit = some .active := by
    cases hplace : i.place <;> rw [hplace] at hstartable hfits
    case dispatched => exact hfits.1
    case running => exact hfits.1
    all_goals cases hstartable
  have hentry : (i.owner.id, i.owner.key) ∈ heldPermits (s.items.map Item.owner) :=
    mem_heldPermits.mpr ⟨i.owner, Multiset.mem_map_of_mem Item.owner hi, hpermit, rfl⟩
  rw [← h.exact bound] at hentry
  have hactive : i.key ∈ s.memory.state.active.keys :=
    List.mem_map_of_mem (f := Prod.snd) (Multiset.mem_coe.mp hentry)
  rcases (h.classifies t ht [] ends).2 i.key hactive with hmem | hdecided
  · cases hmem
  · exact hdecided

theorem ExecutorReachable.startableDecided (h : ExecutorReachable config s) :
    s.memory.state.submissions < UInt64.size → s.memory.sectionEnded = true →
      StartableDecided s := by
  refine Transition.Reachable.invariant_of
    (P := fun s : System => s.memory.state.submissions < UInt64.size →
      s.memory.sectionEnded = true → StartableDecided s)
    (I := ExecutorReachable config) (fun s h => h) ?_ ?_ h
  · rintro s rfl - hended
    cases hended
  · intro s s' reachable inv step bound hended
    have hbound := Nat.lt_of_le_of_lt step.scheduler.submissions bound
    rcases step.sectionEnded hended with hbefore | ⟨t, ht, hends⟩
    · exact step.startableDecided reachable.ownership (reachable.section_closed hbefore)
        (inv hbound hbefore)
    · exact step.startableDecided reachable.ownership (reachable.classifies t ht [] hends).1
        (reachable.classified hbound ht hends)

theorem interference_entered {e e' : Execution} (h : Interference e e') (ok : e.Ok) :
    e'.entered = e.entered := by
  induction h with
  | refl => rfl
  | tail before last ih => rw [last.entered (interference_ok before ok), ih]

/-- A section that does not start the execution. -/
theorem withControl_entered {e : Execution} {control : TaskControl}
    (before : e.entered = false) (not : control.lifecycle ≠ .started) :
    (e.withControl control).entered = false := by
  simp [Execution.withControl, before, not]

theorem Execution.Ok.not_started {e : Execution} (ok : e.Ok) (before : e.entered = false) :
    e.control.lifecycle ≠ .started := fun h => by
  rw [ok.entered h] at before
  cases before

theorem ExecutionState.terminal_not_started {a : ExecutionState} (h : a.isTerminal = true) :
    a ≠ .started := by
  rintro rfl
  cases h

/-- The holder of a decided execution does not start it. -/
theorem Advance.not_entered {owner : TaskOwner} {e e' : Execution} {place place' : Place}
    (h : Advance owner e place e' place') (ok : e.Ok) (fits : PlaceOk e owner place)
    (decided : place.Startable → e.Decided) (before : e.entered = false) :
    e'.entered = false := by
  have hnot := ok.not_started before
  have hbarred : place.Startable → e.control.Barred := fun hs =>
    (decided hs).resolve_left (by simp [before])
  cases h with
  | @start now requested control hbegin =>
      obtain ⟨hopen, hnone, -⟩ := beginStart_granted (congrArg Prod.fst hbegin)
      rcases hbarred trivial with hterminal | hreason
      · rw [hopen] at hterminal
        cases hterminal
      · exact absurd hnone hreason
  | @refuse now requested control hbegin =>
      have hcontrol := beginStart_refused (congrArg Prod.fst hbegin)
      rw [hbegin] at hcontrol
      dsimp only at hcontrol
      refine withControl_entered before ?_
      rcases hcontrol with rfl | ⟨-, -, rfl⟩
      · exact hnot
      · exact fun h => nomatch h
  | authorize authorizes => exact before
  | started =>
      refine withControl_entered before ?_
      unfold TaskControl.markStarted
      split
      · next hstart =>
        rcases hbarred trivial with hterminal | hreason
        · rw [hstart.1] at hterminal
          cases hterminal
        · exact absurd hstart.2 hreason
      · exact hnot
  | resolve hresolve =>
      obtain ⟨-, rfl, hterminal, -⟩ := resolveBackendResult_some hresolve
      exact withControl_entered before (ExecutionState.terminal_not_started hterminal)
  | resolveRefused hresolve => exact before
  | mark hmark =>
      obtain ⟨-, rfl⟩ := markTerminal_true hmark
      exact withControl_entered before (ExecutionState.terminal_not_started fits.2.2.1)
  | markRefused hmark => exact before

/-- What cannot be started, or is decided, does not start. -/
theorem OwnershipChange.not_entered {items items' others : Multiset Item}
    (change : OwnershipChange m items m' items') (inv : Ownership m (items + others))
    {key : Nat}
    (decided : ∀ i ∈ items, i.key = key → i.place.Startable → (m.tasks key).Decided)
    (before : (m.tasks key).entered = false) : (m'.tasks key).entered = false := by
  have hupdate : ∀ (k : Nat) (e' : Execution),
      (k = key → (m.tasks k).entered = false → e'.entered = false) →
      (Function.update m.tasks k e' key).entered = false := fun k e' h => by
    by_cases hk : key = k
    · subst hk
      rw [Function.update_self]
      exact h rfl before
    · rw [Function.update_of_ne hk]
      exact before
  cases change with
  | relocate _ _ hinterference _ =>
      rw [interference_entered (hinterference key) (inv.executions key)]
      exact before
  | admission runner deadline permit place htasks _ _ _ =>
      rw [htasks]
      exact hupdate _ _ fun _ _ => by cases permit <;> rfl
  | @advance owner place place' e' rest hadvance hitems _ hm =>
      subst hm
      have hmem : (⟨owner, place⟩ : Item) ∈ items := by simp [hitems]
      have hfits := inv.fits _ (Multiset.mem_add.mpr (.inl hmem))
      refine hupdate _ _ fun hkey => hadvance.not_entered (inv.executions _) hfits.place ?_
      rw [hkey]
      exact decided _ hmem hkey
  | @promote owner rest _ _ htasks _ _ =>
      rw [htasks]
      exact hupdate _ _ fun _ h => withControl_entered h fun hs =>
        (inv.executions owner.key).not_started h (markAccepted_started hs)
  | release _ _ hm =>
      rw [hm, dropPermit_tasks]
      exact before
  | drop _ hm =>
      rw [hm, Memory.modify, dropPermit_tasks]
      exact hupdate _ _ fun _ h => h
  | publish _ hm =>
      rw [hm]
      exact hupdate _ _ fun _ h => h

/-- A closed scheduler admits nothing. -/
theorem SystemStep.admitted (step : SystemStep config s s') (closed : s.memory.state.Closed)
    (key : Nat) : (s'.memory.tasks key).admitted = (s.memory.tasks key).admitted := by
  have hclosed := step.scheduler.closed_stable closed
  obtain ⟨items, items', others, -, hafter, change⟩ := step.ownership
  have hupdate : ∀ (k : Nat) (e' : Execution), e'.admitted = (s.memory.tasks k).admitted →
      (Function.update s.memory.tasks k e' key).admitted = (s.memory.tasks key).admitted :=
    fun k e' h => by
      by_cases hk : key = k
      · rw [hk, Function.update_self, h]
      · rw [Function.update_of_ne hk]
  cases change with
  | relocate _ _ hinterference _ => exact (interference_fixed (hinterference key)).1
  | admission runner deadline permit place _ _ hitems hpermit =>
      have hmem : (⟨s.memory.state.newOwner runner deadline permit, place⟩ : Item) ∈ s'.items := by
        rw [hafter, hitems]
        simp
      obtain ⟨hwaiting, hready⟩ := System.not_pending hmem hclosed.2.1 hclosed.2.2
      rcases hpermit with ⟨-, hplace, -⟩ | ⟨-, hplace, -⟩
      · exact absurd hplace hready
      · exact absurd hplace hwaiting
  | @advance owner place place' e' rest hadvance _ _ hm =>
      rw [hm]
      exact hupdate _ _ hadvance.fixed.1
  | promote _ _ htasks _ _ =>
      rw [htasks]
      exact hupdate _ _ rfl
  | release _ _ hm => rw [hm, dropPermit_tasks]
  | drop _ hm =>
      rw [hm, Memory.modify, dropPermit_tasks]
      exact hupdate _ _ rfl
  | publish _ hm =>
      rw [hm]
      exact hupdate _ _ rfl

/-- After the section nothing is admitted, and nothing enters Started. -/
theorem Run.after_section (run : Transition.Run (SystemStep config) s s')
    (reachable : ExecutorReachable config s) (ended : s.memory.sectionEnded = true) (key : Nat) :
    s'.memory.sectionEnded = true ∧
      (s'.memory.tasks key).admitted = (s.memory.tasks key).admitted ∧
      (s'.memory.state.submissions < UInt64.size → (s.memory.tasks key).entered = false →
        (s'.memory.tasks key).entered = false) := by
  induction run with
  | refl => exact ⟨ended, rfl, fun _ h => h⟩
  | @tail b c before last ih =>
      have mid : ExecutorReachable config b := Transition.Reachable.run reachable before
      obtain ⟨hended, hadmitted, hentered⟩ := ih
      have hclosed := mid.section_closed hended
      refine ⟨last.sectionEnded_stable hended, (last.admitted hclosed key).trans hadmitted,
        fun bound h => ?_⟩
      have hbound := Nat.lt_of_le_of_lt last.scheduler.submissions bound
      have hdecided := mid.startableDecided hbound hended
      have ownership := mid.ownership
      obtain ⟨items, items', others, hitems, -, change⟩ := last.ownership
      rw [hitems] at ownership
      exact change.not_entered ownership
        (fun i hi hkey => hkey ▸ hdecided i (hitems ▸ Multiset.mem_add.mpr (.inl hi)))
        (hentered hbound h)

/-! ### The counters of a report -/

/-- The executions a tally counts. -/
def ShutdownTally.counted (self : ShutdownTally) : List Nat :=
  self.queued ++ self.acceptedNotStarted ++ self.activeRequested

/-- No execution is counted twice, and those queued are all counted. -/
structure ShutdownTally.Ok (tally : ShutdownTally) : Prop where
  length : tally.queued.length = tally.lengthAtSection
  nodup : tally.counted.Nodup

def Caller.tally? : Caller → Option ShutdownTally
  | .handle => none
  | .shutdown tally _ => some tally

/-- The tally of the `shutdown` a thread runs. -/
def Pc.tally? : Pc → Option ShutdownTally
  | .classify tally _ _ | .classifyMark tally _ _ _ | .grace tally | .collectStarted tally _ _
  | .cancelStarted tally _ => some tally
  | .cancel _ _ caller | .cancelling _ _ caller | .cancelMarked _ _ _ _ caller
  | .cancelReturn _ _ caller => caller.tally?
  | _ => none

/-- The answer of `request_cancel` a thread will act upon. -/
def Pc.answer? : Pc → Option (Nat × CancelOutcome)
  | .cancelMarked key _ outcome _ _ | .cancelReturn key outcome _ => some (key, outcome)
  | _ => none

/-- The owners `shutdown` drained, and has yet to close. -/
def Pc.drained : Pc → List TaskOwner
  | .classify _ drained _ | .classifyMark _ drained _ _ => drained
  | _ => []

/-- The executions whose owners a thread has yet to close. -/
def toClose (pc : Pc) (closing : List Closing) : List Nat :=
  pc.drained.map TaskOwner.key ++ closing.map (·.owner.key)

/-- Why the tally of a `shutdown` counts no execution twice: what it counted is barred,
or was queued and is about to be closed. -/
structure Counts (m : Memory) (pc : Pc) (closing : List Closing) (tally : ShutdownTally) :
    Prop where
  ok : tally.Ok
  known : ∀ key ∈ tally.counted, key < m.state.submissions
  queued : ∀ key ∈ tally.queued, (m.control key).Barred ∨ key ∈ toClose pc closing
  marked : ∀ key ∈ tally.acceptedNotStarted ++ tally.activeRequested, (m.control key).Barred
  classify : ∀ todo, pc.toClassify? = some todo →
    ∀ key ∈ todo, key < m.state.submissions ∧ key ∉ tally.queued
  answered : ∀ key outcome, pc.answer? = some (key, outcome) → outcome ≠ .alreadyTerminal →
    outcome ≠ .alreadyRequested →
    key < m.state.submissions ∧ (m.control key).Barred ∧ key ∉ tally.counted

/-- The tally of a thread, if it has one. -/
def Thread.Counts (m : Memory) (t : Thread) : Prop :=
  ∀ tally, t.pc.tally? = some tally → Executor.Counts m t.pc t.closing tally

theorem Thread.Counts.of_none {t : Thread} (h : t.pc.tally? = none) : t.Counts m := by
  intro tally htally
  rw [h] at htally
  cases htally

section Counts

variable {pc : Pc} {closing : List Closing} {tally : ShutdownTally}

theorem Counts.stable (inv : Counts m pc closing tally)
    (submissions : m.state.submissions ≤ m'.state.submissions)
    (evolves : ∀ key < m.state.submissions, Evolves (m.tasks key) (m'.tasks key)) :
    Counts m' pc closing tally := by
  have hbarred : ∀ key < m.state.submissions, (m.control key).Barred →
      (m'.control key).Barred := fun key hkey h => changes_barred (evolves key hkey).control h
  obtain ⟨hok, hknown, hqueued, hmarked, hclassify, hanswered⟩ := inv
  refine ⟨hok, fun key h => Nat.lt_of_lt_of_le (hknown key h) submissions,
    fun key h => (hqueued key h).imp_left (hbarred key (hknown key ?_)),
    fun key h => hbarred key (hknown key ?_) (hmarked key h), fun todo htodo key h => ?_,
    fun key outcome h hopen hnew => ?_⟩
  · simp only [ShutdownTally.counted, List.mem_append]
    exact .inl (.inl h)
  · simp only [ShutdownTally.counted, List.mem_append] at h ⊢
    tauto
  · obtain ⟨hkey, hnot⟩ := hclassify todo htodo key h
    exact ⟨Nat.lt_of_lt_of_le hkey submissions, hnot⟩
  · obtain ⟨hkey, hb, hnot⟩ := hanswered key outcome h hopen hnew
    exact ⟨Nat.lt_of_lt_of_le hkey submissions, hbarred key hkey hb, hnot⟩

/-- The tally goes on with the thread, without a new answer. -/
theorem Counts.goOn (inv : Counts m pc closing tally) {pc' : Pc} {closing' : List Closing}
    (close : toClose pc closing ⊆ toClose pc' closing')
    (classify : ∀ todo', pc'.toClassify? = some todo' →
      ∃ todo, pc.toClassify? = some todo ∧ todo' ⊆ todo)
    (answer : ∀ key outcome, pc'.answer? = some (key, outcome) →
      pc.answer? = some (key, outcome) ∨ outcome = .alreadyTerminal) :
    Counts m pc' closing' tally := by
  obtain ⟨hok, hknown, hqueued, hmarked, hclassify, hanswered⟩ := inv
  refine ⟨hok, hknown, fun key h => (hqueued key h).imp_right fun h => close h, hmarked,
    fun todo' htodo key h => ?_, fun key outcome h hopen hnew => ?_⟩
  · obtain ⟨todo, htodo', hsub⟩ := classify todo' htodo
    exact hclassify todo htodo' key (hsub h)
  · exact hanswered key outcome ((answer key outcome h).resolve_right hopen) hopen hnew

/-- The first owner to close is closed a step further. -/
theorem Counts.closes (inv : Counts m pc closing tally) {closing' : List Closing}
    (same : closing.map (·.owner.key) = closing'.map (·.owner.key)) :
    Counts m pc closing' tally := by
  refine inv.goOn ?_ (fun todo h => ⟨todo, h, List.Subset.refl _⟩) (fun _ _ h => .inl h)
  rw [toClose, toClose, same]
  exact List.Subset.refl _

/-- An execution for which `mark_cancelling` answers `Requested` was not counted. -/
theorem Counts.not_marked (inv : Counts m pc closing tally) {key : Nat}
    (unbarred : ¬ (m.control key).Barred) :
    key ∉ tally.acceptedNotStarted ++ tally.activeRequested :=
  fun h => unbarred (inv.marked key h)

theorem not_barred_of_requested {c c' : TaskControl} {reason : CancelReason}
    (h : c.markCancelling reason = (.requested, c')) : ¬ c.Barred := by
  obtain ⟨hopen, hnone, -⟩ := markCancelling_requested (congrArg Prod.fst h)
  rintro (hterminal | hreason)
  · rw [hopen] at hterminal
    cases hterminal
  · exact hreason hnone

/-- `mark_cancelling` knows three answers. -/
theorem markCancelling_answers {c c' : TaskControl} {reason : CancelReason}
    {outcome : CancelOutcome} (h : c.markCancelling reason = (outcome, c')) :
    outcome = .alreadyTerminal ∨ outcome = .alreadyRequested ∨ outcome = .requested := by
  unfold TaskControl.markCancelling at h
  split at h
  · exact .inl (Prod.mk.inj h).1.symm
  · split at h
    · exact .inr (.inl (Prod.mk.inj h).1.symm)
    · exact .inr (.inr (Prod.mk.inj h).1.symm)

theorem barred_of_mark {c c' : TaskControl} {reason : CancelReason} {outcome : CancelOutcome}
    (h : c.markCancelling reason = (outcome, c')) : c'.Barred := by
  have hsettles := markCancelling_settles c reason
  rwa [h] at hsettles

/-- The two items of one execution are the same. -/
theorem Ownership.item_unique {items : Multiset Item} (inv : Ownership m items) {i j : Item}
    (hi : i ∈ items) (hj : j ∈ items) (h : i.key = j.key) : i = j :=
  Multiset.inj_on_of_nodup_map inv.keys i hi j hj h

/-- The tally a `shutdown` starts with. -/
theorem Counts.start {items : Multiset Item} (ownership : Ownership m items)
    (state : m.state.items ≤ items) {todo : List Nat} (perm : todo.Perm m.state.active.keys) :
    Counts { m.markOwners m.state.ready .shutdown with state := m.state.close, locked := true }
      (.classify
        { lengthAtSection := m.state.queue.length
          queued := m.state.queue.map TaskOwner.key
          acceptedNotStarted := m.state.ready.map TaskOwner.key
          activeRequested := [] }
        (m.state.queue ++ m.state.ready) todo) []
      { lengthAtSection := m.state.queue.length
        queued := m.state.queue.map TaskOwner.key
        acceptedNotStarted := m.state.ready.map TaskOwner.key
        activeRequested := [] } := by
  have hnodup : (m.state.queue.map TaskOwner.key ++ m.state.ready.map TaskOwner.key).Nodup := by
    have hkeys := Multiset.nodup_of_le (Multiset.map_le_map state) ownership.keys
    rw [SchedulerState.items, Multiset.map_add] at hkeys
    simpa [itemsAt, Item.key, Function.comp_def] using hkeys
  have hitem : ∀ owner ∈ m.state.queue, (⟨owner, .waiting⟩ : Item) ∈ items := fun owner h =>
    Multiset.mem_of_le state (Multiset.mem_add.mpr (.inl (mem_itemsAt.mpr ⟨h, rfl⟩)))
  have hready : ∀ owner ∈ m.state.ready, (⟨owner, .ready⟩ : Item) ∈ items := fun owner h =>
    Multiset.mem_of_le state (Multiset.mem_add.mpr (.inr (mem_itemsAt.mpr ⟨h, rfl⟩)))
  refine ⟨⟨List.length_map _, ?_⟩, fun key h => ?_, fun key h => .inr ?_, fun key h => ?_,
    fun todo' htodo key h => ?_, fun key outcome h => by cases h⟩
  · simpa [ShutdownTally.counted] using hnodup
  · simp only [ShutdownTally.counted, List.append_nil, List.mem_append, List.mem_map] at h
    rcases h with ⟨owner, h, rfl⟩ | ⟨owner, h, rfl⟩
    · exact (ownership.id_eq (hitem owner h)).2
    · exact (ownership.id_eq (hready owner h)).2
  · simp only [toClose, Pc.drained, List.map_append, List.mem_append]
    exact .inl (.inl h)
  · simp only [List.append_nil] at h
    show (if key ∈ m.state.ready.map TaskOwner.key then (m.tasks key).markCancelling .shutdown
      else m.tasks key).control.Barred
    rw [if_pos h]
    have hbarred := barred_of_mark (Prod.mk.eta (p := (m.control key).markCancelling .shutdown)).symm
    unfold Execution.markCancelling
    split <;> exact hbarred
  · obtain rfl : todo = todo' := Option.some.inj htodo
    have hactive : key ∈ m.state.active.keys := perm.subset h
    obtain ⟨hknown, i, hi, rfl, hpermit⟩ := ownership.active_known hactive
    refine ⟨hknown, fun hmem => ?_⟩
    obtain ⟨owner, howner, hkey⟩ := List.mem_map.mp hmem
    have hsame := ownership.item_unique hi (hitem owner howner) hkey.symm
    have hqueued := (ownership.fits _ (hitem owner howner)).place.1
    rw [hsame, hqueued] at hpermit
    cases hpermit

/-- An execution newly marked by the classification is counted. -/
theorem Counts.classified {drained : List TaskOwner} {key : Nat} {todo : List Nat}
    {control : TaskControl} (before : Counts m (.classifyMark tally drained key todo) [] tally)
    (after : Counts (m.setControl key control) (.classifyMark tally drained key todo) [] tally)
    (mark : (m.control key).markCancelling .shutdown = (.requested, control)) :
    Counts (m.setControl key control)
      (.classify { tally with acceptedNotStarted := tally.acceptedNotStarted ++ [key] }
        drained todo) []
      { tally with acceptedNotStarted := tally.acceptedNotStarted ++ [key] } := by
  have hmarked := before.not_marked (not_barred_of_requested mark)
  obtain ⟨hknown, hqueued⟩ := before.classify (key :: todo) rfl key (List.mem_cons_self)
  have hbarred : ((m.setControl key control).control key).Barred := by
    rw [Memory.control, Memory.setControl, Memory.modify_tasks_self]
    exact barred_of_mark mark
  have hperm : (tally.queued ++ (tally.acceptedNotStarted ++ [key]) ++
      tally.activeRequested).Perm (key :: tally.counted) := by
    rw [ShutdownTally.counted, ← List.append_assoc, List.append_assoc, List.singleton_append]
    exact List.perm_middle
  have hmem : ∀ k, k ∈ tally.queued ++ (tally.acceptedNotStarted ++ [key]) ++
      tally.activeRequested → k = key ∨ k ∈ tally.counted := fun k h =>
    List.mem_cons.mp (hperm.subset h)
  refine ⟨⟨before.ok.length, ?_⟩, fun k h => ?_, after.queued, fun k h => ?_,
    fun todo' htodo k h => ?_, fun k outcome h => by cases h⟩
  · refine hperm.symm.nodup (List.nodup_cons.mpr ⟨fun h => ?_, before.ok.nodup⟩)
    simp only [ShutdownTally.counted, List.mem_append] at h hmarked
    tauto
  · rcases hmem k h with rfl | h
    · exact hknown
    · exact before.known k h
  · simp only [List.append_assoc, List.mem_append, List.mem_singleton] at h
    rcases h with h | rfl | h
    · exact after.marked k (List.mem_append_left _ h)
    · exact hbarred
    · exact after.marked k (List.mem_append_right _ h)
  · obtain rfl : todo = todo' := Option.some.inj htodo
    exact after.classify (key :: todo) rfl k (List.mem_cons_of_mem _ h)

/-- Nothing left to close: everything counted is barred. -/
theorem Counts.barred (inv : Counts m pc [] tally) (drained : pc.drained = []) {key : Nat}
    (h : key ∈ tally.counted) : (m.control key).Barred := by
  simp only [ShutdownTally.counted, List.append_assoc, List.mem_append] at h
  rcases h with h | h
  · refine (inv.queued key h).resolve_right fun hmem => ?_
    simp [toClose, drained] at hmem
  · exact inv.marked key (List.mem_append.mpr h)

/-- An answer that counts is added to the tally. -/
theorem Counts.answer {key : Nat} {outcome : CancelOutcome} {todo : List Nat}
    (inv : Counts m (.cancelReturn key outcome (.shutdown tally todo)) [] tally)
    (unended : outcome ≠ .alreadyTerminal) (new : outcome ≠ .alreadyRequested) :
    Counts m
      (.cancelStarted { tally with activeRequested := tally.activeRequested ++ [key] } todo) []
      { tally with activeRequested := tally.activeRequested ++ [key] } := by
  obtain ⟨hknown, hbarred, hnot⟩ := inv.answered key outcome rfl unended new
  have hcounted : ({ tally with
      activeRequested := tally.activeRequested ++ [key] } : ShutdownTally).counted =
      tally.counted ++ [key] := by
    simp only [ShutdownTally.counted, List.append_assoc]
  refine ⟨⟨inv.ok.length, ?_⟩, fun k h => ?_, inv.queued, fun k h => ?_,
    fun todo' h => (by cases h), fun k outcome h => (by cases h)⟩
  · rw [hcounted, ← List.concat_eq_append]
    exact inv.ok.nodup.concat hnot
  · rw [hcounted, List.mem_append, List.mem_singleton] at h
    rcases h with h | rfl
    · exact inv.known k h
    · exact hknown
  · simp only [List.mem_append, List.mem_singleton] at h
    rcases h with h | h | rfl
    · exact inv.marked k (List.mem_append_left _ h)
    · exact inv.marked k (List.mem_append_right _ h)
    · exact hbarred

/-- The answer of `mark_cancelling`, before `shutdown` acts upon it. -/
theorem Counts.marking {key : Nat} {reason : CancelReason} {outcome : CancelOutcome}
    {owner : Option TaskOwner} {caller : Caller} {control : TaskControl}
    (before : Counts m (.cancelling key reason caller) [] tally)
    (after : Counts m' (.cancelling key reason caller) [] tally)
    (known : key < m'.state.submissions)
    (mark : (m.control key).markCancelling reason = (outcome, control))
    (marked : m'.control key = control) :
    Counts m' (.cancelMarked key reason outcome owner caller) [] tally := by
  refine ⟨after.ok, after.known, after.queued, after.marked, fun todo h => (by cases h),
    fun k outcome' h hopen hnew => ?_⟩
  obtain ⟨rfl, rfl⟩ := Prod.mk.inj (Option.some.inj h)
  have hrequested := ((markCancelling_answers mark).resolve_left hopen).resolve_left hnew
  subst hrequested
  refine ⟨known, by rw [marked]; exact barred_of_mark mark, fun hcounted => ?_⟩
  exact not_barred_of_requested mark (before.barred rfl hcounted)

end Counts

theorem CancelStep.counts {pc : Pc} {t' : Thread} {spawned : List Thread}
    (step : CancelStep m pc m' t' spawned) (known : CancelsKnown m { pc })
    (before : Thread.Counts m { pc }) (after : Thread.Counts m' { pc }) :
    t'.Counts m' ∧ spawned = [] := by
  cases step with
  | @terminal key reason caller hlock hterminal =>
      refine ⟨fun tally htally => (after tally htally).goOn (List.Subset.refl _)
        (fun _ h => by cases h) fun k outcome h => ?_, rfl⟩
      exact .inr (Prod.mk.inj (Option.some.inj h)).2.symm
  | @lock key reason caller hlock hopen =>
      exact ⟨fun tally htally => (after tally htally).goOn (List.Subset.refl _)
        (fun _ h => by cases h) (fun _ _ h => by cases h), rfl⟩
  | @mark key reason caller owner state outcome control htake hmark =>
      refine ⟨fun tally htally => (before tally htally).marking (after tally htally) ?_ hmark ?_,
        rfl⟩
      · rw [(takeOwner_active htake).2]
        exact known.1 key (List.mem_cons_self)
      · rw [Memory.control, Memory.setControl, Memory.modify_tasks_self]
        rfl
  | @unlock key reason outcome owner caller =>
      exact ⟨fun tally htally => (after tally htally).goOn (by simp [toClose, Pc.drained])
        (fun _ h => by cases h) (fun _ _ h => .inl h), rfl⟩
  | @answer key outcome caller =>
      cases caller with
      | handle => exact ⟨.of_none rfl, rfl⟩
      | shutdown tally todo =>
          refine ⟨fun tally' htally => ?_, rfl⟩
          have hcounts := after tally rfl
          by_cases hcounted : outcome ≠ .alreadyTerminal ∧ outcome ≠ .alreadyRequested
          · simp only [Caller.resume, if_pos hcounted] at htally ⊢
            obtain rfl := Option.some.inj htally
            exact hcounts.answer hcounted.1 hcounted.2
          · simp only [Caller.resume, if_neg hcounted] at htally ⊢
            obtain rfl := Option.some.inj htally
            exact hcounts.goOn (List.Subset.refl _) (fun _ h => by cases h)
              (fun _ _ h => by cases h)

theorem ShutdownStep.counts {pc : Pc} {t' : Thread} {spawned : List Thread}
    {items : Multiset Item} (step : ShutdownStep m pc m' t' spawned)
    (ownership : Ownership m items) (state : m.state.items ≤ items)
    (before : Thread.Counts m { pc }) (after : Thread.Counts m' { pc }) :
    t'.Counts m' ∧ spawned = [] := by
  cases step with
  | @close todo hlock htodo =>
      refine ⟨fun tally htally => ?_, rfl⟩
      obtain rfl := Option.some.inj htally
      exact Counts.start ownership state htodo
  | @read tally drained key todo haccepted =>
      exact ⟨fun tally htally => (after tally htally).goOn (List.Subset.refl _)
        (fun _ h => ⟨_, h, List.Subset.refl _⟩) (fun _ _ h => by cases h), rfl⟩
  | @skip tally drained key todo hother =>
      refine ⟨fun tally htally => (after tally htally).goOn (List.Subset.refl _)
        (fun todo' h => ⟨key :: todo, rfl, ?_⟩) (fun _ _ h => by cases h), rfl⟩
      obtain rfl : todo = todo' := Option.some.inj h
      exact List.subset_cons_self _ _
  | @mark tally drained key todo outcome control hmark =>
      refine ⟨fun tally' htally => ?_, rfl⟩
      have hcounts := after tally rfl
      by_cases hrequested : outcome = .requested
      · simp only [if_pos hrequested] at htally ⊢
        obtain rfl := Option.some.inj htally
        subst hrequested
        exact (before tally rfl).classified hcounts hmark
      · simp only [if_neg hrequested] at htally ⊢
        obtain rfl := Option.some.inj htally
        refine hcounts.goOn (List.Subset.refl _) (fun todo' h => ⟨key :: todo, rfl, ?_⟩)
          (fun _ _ h => by cases h)
        obtain rfl : todo = todo' := Option.some.inj h
        exact List.subset_cons_self _ _
  | @unlock tally drained =>
      exact ⟨fun tally htally => (after tally htally).goOn
        (by simp [toClose, Pc.drained, closeAll, Function.comp_def]) (fun _ h => by cases h)
        (fun _ _ h => by cases h), rfl⟩
  | drained hlock hactive => exact ⟨.of_none rfl, rfl⟩
  | report => exact ⟨.of_none rfl, rfl⟩
  | _ =>
      exact ⟨fun tally htally => (after tally htally).goOn (List.Subset.refl _)
        (fun _ h => by cases h) (fun _ _ h => by cases h), rfl⟩

theorem ThreadStep.counts {t t' : Thread} {spawned before after : List Thread}
    (step : ThreadStep config m t m' t' spawned)
    (reachable : ExecutorReachable config ⟨m, before ++ t :: after⟩) (inv : t.Counts m) :
    t'.Counts m' ∧ ∀ u ∈ spawned, u.Counts m' := by
  have ownership := reachable.ownership
  have hsame : t.Counts m' := fun tally htally =>
    (inv tally htally).stable step.scheduler.submissions (step.evolves ownership)
  have hitems : t.items ≤ System.items ⟨m, before ++ t :: after⟩ := by
    rw [System.items, Pool.tally_split, ← add_assoc, add_comm m.state.items, add_assoc]
    exact Multiset.le_add_right _ _
  cases step with
  | recordReason => exact ⟨hsame, by simp⟩
  | storeRequested => exact ⟨hsame, by simp⟩
  | markTerminal hmark => exact ⟨fun tally h => (hsame tally h).closes (by rfl), by simp⟩
  | markTerminalRefused hmark => exact ⟨fun tally h => (hsame tally h).closes (by rfl), by simp⟩
  | release hlock => exact ⟨fun tally h => (hsame tally h).closes (by rfl), by simp⟩
  -- In a run no task is dropped without a result.
  | @drop pc owner closing hlock =>
      have hmem : (⟨owner, .closing (.release none)⟩ : Item) ∈
          System.items ⟨m, before ++ _ :: after⟩ :=
        Multiset.mem_of_le hitems (by simp [Thread.items])
      exact absurd rfl (reachable.kept.places _ hmem).2
  | @publish pc owner result closing =>
      refine ⟨fun tally htally => ?_, by simp⟩
      have hcounts := hsame tally htally
      refine ⟨hcounts.ok, hcounts.known, fun key h => ?_, hcounts.marked, hcounts.classify,
        hcounts.answered⟩
      have hmem : (⟨owner, .closing (.publish result)⟩ : Item) ∈
          System.items ⟨m, before ++ _ :: after⟩ :=
        Multiset.mem_of_le hitems (by simp [Thread.items])
      -- Its item is gone, but the task is terminal now.
      have hterminal : (m.tasks owner.key).control.lifecycle.isTerminal = true :=
        (ownership.fits _ hmem).place.2.1
      by_cases hkey : key = owner.key
      · subst hkey
        refine .inl (.inl ?_)
        rw [Memory.control, Memory.modify_tasks_self]
        exact hterminal
      · refine (hcounts.queued key h).imp_right fun hclose => ?_
        simp only [toClose, List.map_cons, List.mem_append, List.mem_cons] at hclose ⊢
        tauto
  | pc h =>
      cases h with
      | submit h =>
          cases h with
          | managerSpawned =>
              exact ⟨.of_none rfl, List.forall_mem_singleton.mpr (.of_none rfl)⟩
          | _ => exact ⟨.of_none rfl, by simp⟩
      | manager h =>
          cases h with
          | spawnTask => exact ⟨.of_none rfl, List.forall_mem_singleton.mpr (.of_none rfl)⟩
          | _ => exact ⟨.of_none rfl, by simp⟩
      | cancel h =>
          obtain ⟨hcounts, rfl⟩ := h.counts (reachable.cancelsKnown _ (by simp)) inv hsame
          exact ⟨hcounts, by simp⟩
      | shutdown h =>
          obtain ⟨hcounts, rfl⟩ := h.counts ownership (Multiset.le_add_right _ _) inv hsame
          exact ⟨hcounts, by simp⟩
      | task h => cases h <;> exact ⟨.of_none rfl, by simp⟩

theorem ExecutorReachable.counts (h : ExecutorReachable config s) :
    ∀ t ∈ s.threads, t.Counts s.memory := by
  refine Transition.Reachable.invariant_of
    (P := fun s : System => ∀ t ∈ s.threads, t.Counts s.memory)
    (I := ExecutorReachable config) (fun s h => h) ?_ ?_ h
  · rintro s rfl t ht
    cases ht
  · intro s s' reachable inv step
    refine Pool.Step.threads (K := ExecutorReachable config)
      (fun known h inv => h.counts known inv)
      (fun known _ h _ inv tally htally => (inv tally htally).stable h.scheduler.submissions
        (h.evolves known.ownership))
      (fun {m m' spawned threads} known h => ?_) step reachable inv
    cases h with
    | tick later hlater =>
        exact ⟨fun u _ inv tally htally => (inv tally htally).stable (Nat.le_refl _)
          fun key _ => .refl _, by simp⟩
    | _ => exact ⟨fun u _ inv => inv, List.forall_mem_singleton.mpr (.of_none rfl)⟩

/-- Reports are the tallies of the `shutdown` calls that return. -/
theorem ThreadStep.reports {t t' : Thread} {spawned : List Thread}
    (step : ThreadStep config m t m' t' spawned) :
    m'.reports = m.reports ∨ ∃ tally, t.pc.tally? = some tally ∧
      m'.reports = m.reports ++ [tally] := by
  have hdrop : ∀ owner : TaskOwner, (m.dropPermit owner).reports = m.reports := by
    intro owner
    unfold Memory.dropPermit
    split <;> rfl
  cases step with
  | release hlock => exact .inl (hdrop _)
  | drop hlock => exact .inl (hdrop _)
  | pc h =>
      cases h with
      | submit h => cases h <;> exact .inl rfl
      | manager h => cases h <;> exact .inl rfl
      | cancel h =>
          cases h with
          | @answer key outcome caller => cases caller <;> exact .inl rfl
          | _ => exact .inl rfl
      | shutdown h =>
          cases h with
          | @drained tally hlock hactive => exact .inr ⟨tally, rfl, rfl⟩
          | @report tally => exact .inr ⟨tally, rfl, rfl⟩
          | _ => exact .inl rfl
      | task h => cases h <;> exact .inl rfl
  | _ => exact .inl rfl

theorem ExecutorReachable.reports (h : ExecutorReachable config s) :
    ∀ tally ∈ s.memory.reports, tally.Ok := by
  refine Transition.Reachable.invariant_of
    (P := fun s : System => ∀ tally ∈ s.memory.reports, tally.Ok)
    (I := ExecutorReachable config) (fun s h => h) ?_ ?_ h
  · rintro s rfl tally htally
    cases htally
  · intro s s' reachable inv step tally htally
    cases step with
    | @thread m m' t t' spawned before after h =>
        rcases h.reports with hsame | ⟨new, hnew, hlog⟩
        · exact inv tally (hsame ▸ htally)
        · rw [hlog, List.mem_append, List.mem_singleton] at htally
          rcases htally with hold | rfl
          · exact inv tally hold
          · exact (reachable.counts t (by simp) tally hnew).ok
    | environment threads h =>
        cases h with
        | _ => exact inv tally htally

/-- **Shutdown.** Once the first section of a `shutdown` has ended: no execution is
admitted any more; and as long as fewer than 2^64 identifiers were allocated, an
execution that has not entered Started never will. Of every report, `queued_cancelled`
is the length the queue had at that section, and no execution is counted twice. -/
theorem shutdown_stops (config : AdmissionConfig) (s : System)
    (reachable : ExecutorReachable config s) :
    (s.memory.sectionEnded = true → ∀ s', Transition.Run (SystemStep config) s s' → ∀ key,
      (s'.memory.tasks key).admitted = (s.memory.tasks key).admitted ∧
      (s'.memory.state.submissions < UInt64.size → (s.memory.tasks key).entered = false →
        (s'.memory.tasks key).entered = false)) ∧
    ∀ tally ∈ s.memory.reports,
      tally.report.queuedCancelled = tally.lengthAtSection ∧ tally.counted.Nodup := by
  refine ⟨fun ended s' run key => (Run.after_section run reachable ended key).2,
    fun tally htally => ?_⟩
  have hok := reachable.reports tally htally
  exact ⟨hok.length, hok.nodup⟩

/-- The sample's failure when `shutdown` finds the task ready. -/
def sampleShutFailure : Outcome :=
  .error ((((sampleReady.markOwners sampleReady.state.ready .shutdown).control 0)).reasonFailure
    .shutdown)

/-- The one task was ready, and is counted. -/
def sampleShutTally : ShutdownTally where
  lengthAtSection := 0
  queued := []
  acceptedNotStarted := [0]
  activeRequested := []

def sampleShut : System where
  memory :=
    let marked := sampleReady.markOwners sampleReady.state.ready .shutdown
    let ended := marked.setControl 0 ((marked.control 0).markTerminal .terminated).2
    { ended.modify 0 (·.publish sampleShutFailure) with
      state := { SchedulerState.new with accepting := false, nextId := 2, submissions := 1 }
      reports := [sampleShutTally]
      sectionEnded := true }
  threads := [{ pc := .ensureManager }, { pc := .done }]

theorem sampleShut_reachable : ExecutorReachable sampleConfig sampleShut := by
  refine ⟨System.initial, rfl, ?_⟩
  refine .head (.environment [] (.submit .inProcess none)) ?_
  refine .head (.thread [] [] (.pc (.submit (.admitted rfl rfl)))) ?_
  refine .head (.environment [_] .shutdown) ?_
  refine .head (.thread [_] [] (.pc (.shutdown (.close rfl (.refl _))))) ?_
  refine .head (.thread [_] [] (.pc (.shutdown (.skip (by decide))))) ?_
  refine .head (.thread [_] [] (.pc (.shutdown .unlock))) ?_
  refine .head (.thread [_] [] (.markTerminal rfl)) ?_
  refine .head (.thread [_] [] (.release fun _ => rfl)) ?_
  refine .head (.thread [_] [] .publish) ?_
  exact .head (.thread [_] [] (.pc (.shutdown (.drained rfl rfl)))) .refl

/-- The sample's report counts its one task once. -/
theorem shutdown_stops_shut : sampleShutTally.report.queuedCancelled = 0 ∧
    sampleShutTally.counted.Nodup :=
  (shutdown_stops sampleConfig sampleShut sampleShut_reachable).2 sampleShutTally (by simp [sampleShut])

/-! ### Identifiers used again -/

/-- The identifiers start again after 2^64 - 1 of them. -/
theorem idOf_wraps : idOf (UInt64.size - 1) = 1 := by
  have hlast : (idOf (UInt64.size - 2)).toNat = UInt64.size - 1 :=
    @toNat_idOf (UInt64.size - 2) (by decide)
  have hzero : idOf (UInt64.size - 2) + 1 = 0 := by
    apply UInt64.toNat_inj.mp
    rw [UInt64.toNat_add, hlast]
    rfl
  show followingId (idOf (UInt64.size - 2)) = 1
  rw [followingId, hzero]
  rfl

/-- The last thread moves. -/
theorem step_last {t t' : Thread} {threads : List Thread}
    (step : ThreadStep config m t m' t' []) :
    SystemStep config ⟨m, threads ++ [t]⟩ ⟨m', threads ++ [t']⟩ := by
  have hstep : SystemStep config ⟨m, threads ++ [t]⟩ ⟨m', threads ++ [t'] ++ []⟩ :=
    .thread threads [] step
  rwa [List.append_nil] at hstep

/-- A submission that finds both limits reached only takes an identifier. -/
theorem run_rejections {threads : List Thread} (unlocked : m.locked = false)
    (accepting : m.state.accepting = true)
    (active : config.activeLimit ≤ m.state.active.length)
    (queue : config.queueLimit ≤ m.state.queue.length) (n : Nat) :
    ∃ id, Transition.Run (SystemStep config) ⟨m, threads⟩
      ⟨{ m with
          state := { m.state with nextId := id, submissions := m.state.submissions + n } },
        threads ++ List.replicate n { pc := .done }⟩ := by
  induction n with
  | zero => exact ⟨m.state.nextId, by simpa using .refl⟩
  | succ n ih =>
      obtain ⟨id, run⟩ := ih
      refine ⟨followingId id, (run.tail (.environment _ (.submit .inProcess none))).tail ?_⟩
      have hrejected : ({ m.state with
            nextId := id, submissions := m.state.submissions + n } : SchedulerState).submit config
          .inProcess none =
          (.error .queueFull, { m.state with
            nextId := followingId id, submissions := m.state.submissions + n + 1 }) := by
        simp [SchedulerState.submit, accepting, Nat.not_lt.mpr active, queue,
          SchedulerState.allocate]
      rw [List.replicate_succ', ← List.append_assoc]
      exact step_last (.pc (.submit (.rejected unlocked hrejected)))

/-- Two tasks may be active, and none waits. -/
def reuseConfig : AdmissionConfig where
  activeLimit := 2
  activeLimit_pos := by decide
  queueLimit := 0

/-- The first task is dispatched and not started, the second one is ready. -/
def reuseDispatched : System where
  memory :=
    { Memory.initial with
      managerStarted := true
      state :=
        { SchedulerState.new with
          ready := [⟨2, 1, .inProcess, none, some .active⟩]
          active := [(2, 1), (1, 0)]
          nextId := 3
          submissions := 2
          dispatched := [⟨1, 0, .inProcess, none, some .active⟩] }
      tasks :=
        Function.update
          (Function.update (fun _ => .absent) 0 (.fresh 1 .inProcess none .active))
          1 (.fresh 2 .inProcess none .active) }
  threads := [{ pc := .done }, { pc := .manager },
    { pc := .task ⟨1, 0, .inProcess, none, some .active⟩ }, { pc := .ensureManager }]

theorem reuseDispatched_reachable : ExecutorReachable reuseConfig reuseDispatched := by
  refine ⟨System.initial, rfl, ?_⟩
  refine .head (.environment [] (.submit .inProcess none)) ?_
  refine .head (.thread [] [] (.pc (.submit (.admitted rfl rfl)))) ?_
  refine .head (.thread [] [] (.pc (.submit (.claimManager rfl)))) ?_
  refine .head (.thread [] [] (.pc (.submit .managerSpawned))) ?_
  refine .head (.thread [_] [] (.pc (.manager (.sweep rfl rfl (.refl _))))) ?_
  refine .head (.thread [_] [] (.pc (.manager .collect))) ?_
  refine .head (.thread [_] [] (.pc (.manager .collected))) ?_
  refine .head (.thread [_] [] (.pc (.manager (.dispatch rfl rfl)))) ?_
  refine .head (.thread [_] [] (.pc (.manager .spawnTask))) ?_
  refine .head (.environment [_, _, _] (.submit .inProcess none)) ?_
  exact .head (.thread [_, _, _] [] (.pc (.submit (.admitted rfl rfl)))) .refl

/-- The same when the identifiers have come round. -/
def reuseWrapped (n : Nat) : System where
  memory :=
    { reuseDispatched.memory with
      state := { reuseDispatched.memory.state with nextId := 1, submissions := n + 2 } }
  threads := reuseDispatched.threads ++ List.replicate n { pc := .done }

theorem reuseWrapped_reachable {n : Nat} (h : idOf (n + 2) = 1) :
    ExecutorReachable reuseConfig (reuseWrapped n) := by
  obtain ⟨id, run⟩ := @run_rejections reuseConfig reuseDispatched.memory
    reuseDispatched.threads rfl rfl (by decide) (by decide) n
  have hsubmissions : reuseDispatched.memory.state.submissions + n = n + 2 := Nat.add_comm 2 n
  rw [hsubmissions] at run
  have reachable := Transition.Reachable.run reuseDispatched_reachable run
  obtain rfl : id = 1 := (ExecutorReachable.fifo reachable).nextId.trans h
  exact reachable

/-- The second task is cancelled; the identifier of the first is given out again and
replaces its entry in the active map, so that `shutdown` does not see the first. -/
theorem reuse_section (n : Nat) :
    ∃ s, Transition.Run (SystemStep reuseConfig) (reuseWrapped n) s ∧
      s.memory.sectionEnded = true ∧
      s.memory.tasks 0 = .fresh 1 .inProcess none .active ∧
      { pc := .task ⟨1, 0, .inProcess, none, some .active⟩ } ∈ s.threads := by
  have hmarked : ∀ tasks : Nat → Execution,
      (if n + 2 ∈ [n + 2] then
        (Function.update tasks (n + 2) (.fresh 1 .inProcess none .active) (n + 2)).markCancelling
          .shutdown
      else Function.update tasks (n + 2) (.fresh 1 .inProcess none .active)
        (n + 2)).control.lifecycle = .cancelling := fun tasks => by
    rw [if_pos List.mem_cons_self, Function.update_self]
    rfl
  refine ⟨_,
    .head (.environment _ (.cancel 1 rfl)) <|
    .head (step_last (.pc (.cancel (.lock rfl rfl)))) <|
    .head (step_last (.pc (.cancel (.mark rfl rfl)))) <|
    .head (step_last .recordReason) <|
    .head (step_last .storeRequested) <|
    .head (step_last (.pc (.cancel .unlock))) <|
    .head (step_last (.markTerminal rfl)) <|
    .head (step_last (.release fun _ => rfl)) <|
    .head (.environment _ (.submit .inProcess none)) <|
    .head (step_last (.pc (.submit (.admitted rfl rfl)))) <|
    .head (.environment _ .shutdown) <|
    .head (step_last (.pc (.shutdown (.close rfl (.refl _))))) <|
    .head (step_last (.pc (.shutdown (.skip fun h => nomatch (hmarked _).symm.trans h)))) <|
    .head (step_last (.pc (.shutdown .unlock))) .refl, rfl, ?_, ?_⟩
  · rfl
  · simp [reuseDispatched]

/-- Without a bound on the submissions an execution may start after the section. -/
theorem shutdown_stops_wrapped :
    ∃ s s', ExecutorReachable reuseConfig s ∧ s.memory.sectionEnded = true ∧
      Transition.Run (SystemStep reuseConfig) s s' ∧
      (s.memory.tasks 0).entered = false ∧ (s'.memory.tasks 0).entered = true := by
  obtain ⟨s, run, hended, htask, hthread⟩ := reuse_section (UInt64.size - 3)
  have reachable := Transition.Reachable.run (reuseWrapped_reachable idOf_wraps) run
  obtain ⟨memory, threads⟩ := s
  obtain ⟨before, after, rfl⟩ := List.append_of_mem hthread
  dsimp only at hended htask
  have hstart : (memory.control 0).beginStart memory.now =
      (true, none, { (memory.control 0) with lifecycle := .started }) := by
    rw [Memory.control, htask]
    rfl
  refine ⟨_, _, reachable, hended, .single (.thread before after (.pc (.task (.start hstart)))),
    ?_, ?_⟩
  · dsimp only
    rw [htask]
    rfl
  · simp [Memory.setControl, Execution.withControl]

end Libdeno.Executor
