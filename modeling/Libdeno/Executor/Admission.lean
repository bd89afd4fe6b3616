import Libdeno.Executor.Steps

/-!
# Libdeno.Executor.Admission

The admission invariant. Limits, order and ownership hold in every reachable state,
and no owner is lost (`Kept`). While the 64-bit identifiers have not wrapped around
they are as good as keys, and the active map holds exactly the permits the owners
hold (`Exact`).
-/

namespace Libdeno.Executor

open Supervisor

variable {config : AdmissionConfig} {s s' : System}

/-! ### Invariants of every run -/

/-- What a step does to the scheduler's state. -/
theorem SystemStep.scheduler (step : SystemStep config s s') :
    SchedulerChange config s.memory.state s'.memory.state := by
  cases step with
  | thread before after h => exact h.scheduler
  | environment threads h => cases h <;> exact .unchanged

/-- What a step does to the owners of the system. -/
theorem SystemStep.ownership (step : SystemStep config s s') :
    ∃ items items' others, s.items = items + others ∧ s'.items = items' + others ∧
      OwnershipChange s.memory items s'.memory items' := by
  cases step with
  | @thread m m' t t' spawned before after h =>
      refine ⟨_, _, Pool.tally Thread.items (before ++ after), ?_, ?_, h.ownership⟩
      · rw [System.items, Pool.tally_split, reached, add_assoc]
      · rw [System.items, Pool.tally_step, reachedAfter]
        exact (add_assoc _ _ _).symm
  | @environment m m' spawned threads h =>
      refine ⟨m.state.items, m'.state.items + Pool.tally Thread.items spawned,
        Pool.tally Thread.items threads, rfl, ?_, ?_⟩
      · rw [System.items, Pool.tally_append, add_assoc, add_comm (Pool.tally _ spawned)]
      · cases h <;> exact .quiet rfl rfl rfl (add_zero _)

theorem ExecutorReachable.limits (h : ExecutorReachable config s) :
    Limits config s.memory.state := by
  refine Transition.Reachable.invariant (P := fun s : System => Limits config s.memory.state)
    ?_ ?_ h
  · rintro s rfl
    exact .new config
  · intro s s' inv step
    exact step.scheduler.limits inv

theorem ExecutorReachable.fifo (h : ExecutorReachable config s) : Fifo s.memory.state := by
  refine Transition.Reachable.invariant (P := fun s : System => Fifo s.memory.state) ?_ ?_ h
  · rintro s rfl
    exact .new
  · intro s s' inv step
    exact step.scheduler.fifo inv

theorem Execution.absent_ok : Execution.absent.Ok where
  coherent := .new 0 .inProcess none
  entered hs := by cases hs
  result result hr := by cases hr
  published := rfl
  resolved hr := absurd rfl hr
  dropped hd := by cases hd
  absent _ := ⟨rfl, rfl⟩

theorem Ownership.initial : Ownership Memory.initial System.initial.items where
  keys := Multiset.nodup_zero
  fits i hi := absurd hi (Multiset.notMem_zero i)
  owned key ha := by cases ha
  executions key := Execution.absent_ok
  ids key ha := by cases ha
  permits := Multiset.zero_le _

theorem ExecutorReachable.ownership (h : ExecutorReachable config s) :
    Ownership s.memory s.items := by
  refine Transition.Reachable.invariant_of (P := fun s : System => Ownership s.memory s.items)
    (fun _ h => ExecutorReachable.fifo h) ?_ ?_ h
  · rintro s rfl
    exact .initial
  · intro s s' fifo inv step
    obtain ⟨items, items', others, hbefore, hafter, change⟩ := step.ownership
    rw [hbefore] at inv
    rw [hafter]
    exact change.preserves fifo.nextId inv

/-- Identifiers are only ever allocated. -/
theorem SchedulerChange.submissions {a b : SchedulerState} (change : SchedulerChange config a b) :
    a.submissions ≤ b.submissions := by
  cases change <;> first | exact Nat.le_refl _ | exact Nat.le_succ _

/-- What is no longer accepting is closed. -/
theorem ExecutorReachable.closed (h : ExecutorReachable config s) :
    s.memory.state.accepting = false → s.memory.state.Closed := by
  refine Transition.Reachable.invariant
    (P := fun s : System => s.memory.state.accepting = false → s.memory.state.Closed) ?_ ?_ h
  · rintro s rfl haccepting
    cases haccepting
  · intro s s' inv step
    exact step.scheduler.closes inv

/-! ### No owner is lost -/

/-- No owner is abandoned, and none is dropped. -/
structure Kept (m : Memory) (items : Multiset Item) : Prop where
  places : ∀ i ∈ items, i.place ≠ .abandoned ∧ i.place ≠ .closing (.release none)
  kept : ∀ key, (m.tasks key).dropped = false

section Kept

variable {m m' : Memory} {items items' others : Multiset Item}

/-- Where nothing is ready once closed, owners are not lost by moving. -/
theorem Place.Moves.not_lost {closed : Prop} {place place' : Place}
    (h : Place.Moves closed place place') (ready : closed → place ≠ .ready)
    (kept : place ≠ .abandoned ∧ place ≠ .closing (.release none)) :
    place' ≠ .abandoned ∧ place' ≠ .closing (.release none) := by
  cases h with
  | stay => exact kept
  | abandon hclosed => exact absurd rfl (ready hclosed)
  | giveUp => exact absurd rfl kept.1
  | _ => simp

/-- The holder of an owner does not lose it. -/
theorem Advance.not_lost {owner : TaskOwner} {e e' : Execution} {place place' : Place}
    (h : Advance owner e place e' place') (item : Item.Ok e ⟨owner, place⟩) :
    place' ≠ .abandoned ∧ place' ≠ .closing (.release none) := by
  have hplace := item.place
  cases h with
  | resolveRefused hresolve =>
      have hopen : e.control.lifecycle.isTerminal = false := hplace.2.1
      rw [(resolveBackendResult_none hresolve).1] at hopen
      cases hopen
  | markRefused hmark =>
      have hopen : e.control.lifecycle.isTerminal = false := hplace.2.1.1
      rw [markTerminal_false hmark] at hopen
      cases hopen
  | _ => simp

/-- One execution changes, and is not dropped. -/
theorem kept_update {key : Nat} {e' : Execution} {tasks : Nat → Execution}
    (kept : ∀ key, (tasks key).dropped = false) (change : e'.dropped = false) :
    ∀ k, (Function.update tasks key e' k).dropped = false := by
  intro k
  by_cases hk : k = key
  · rw [hk, Function.update_self]
    exact change
  · rw [Function.update_of_ne hk]
    exact kept k

theorem OwnershipChange.kept (change : OwnershipChange m items m' items')
    (ready : m.state.accepting = false → ∀ i ∈ items, i.place ≠ .ready)
    (inv : Ownership m (items + others)) (kept : Kept m (items + others)) :
    Kept m' (items' + others) := by
  have hplaces : (∀ i ∈ items', i.place ≠ .abandoned ∧ i.place ≠ .closing (.release none)) →
      ∀ i ∈ items' + others, i.place ≠ .abandoned ∧ i.place ≠ .closing (.release none) :=
    fun h i hi => by
      rcases Multiset.mem_add.mp hi with hi | hi
      · exact h i hi
      · exact kept.places i (Multiset.mem_add.mpr (.inr hi))
  have hbefore : ∀ i ∈ items, i.place ≠ .abandoned ∧ i.place ≠ .closing (.release none) :=
    fun i hi => kept.places i (Multiset.mem_add.mpr (.inl hi))
  -- The others of a step that moves one owner, `place` being where it moves.
  have hone : ∀ {i i' : Item} {rest : Multiset Item}, items = {i} + rest → items' = {i'} + rest →
      (i'.place ≠ .abandoned ∧ i'.place ≠ .closing (.release none)) →
      ∀ i ∈ items', i.place ≠ .abandoned ∧ i.place ≠ .closing (.release none) := by
    rintro i i' rest rfl rfl hplace j hj
    rcases Multiset.mem_add.mp hj with hj | hj
    · obtain rfl := Multiset.mem_singleton.mp hj
      exact hplace
    · exact hbefore j (Multiset.mem_add.mpr (.inr hj))
  cases change with
  | relocate _ _ hinterference hmoves =>
      refine ⟨hplaces fun i hi => ?_, fun key => ?_⟩
      · obtain ⟨i₀, hi₀, -, hplace⟩ := Multiset.exists_mem_of_rel_of_mem
          (Multiset.rel_flip.mpr hmoves) hi
        exact hplace.not_lost (fun hclosed => ready hclosed i₀ hi₀) (hbefore i₀ hi₀)
      · rw [(interference_fixed (hinterference key)).2.2.1]
        exact kept.kept key
  | admission runner deadline permit place htasks _ hitems hpermit =>
      refine ⟨hplaces fun i hi => ?_, ?_⟩
      · rw [hitems] at hi
        rcases Multiset.mem_add.mp hi with hi | hi
        · obtain rfl := Multiset.mem_singleton.mp hi
          rcases hpermit with ⟨-, rfl, -⟩ | ⟨-, rfl, -⟩ <;> simp
        · exact hbefore i hi
      · rw [htasks]
        exact kept_update kept.kept rfl
  | @advance owner place place' e' rest hadvance hitems hitems' hm =>
      have hitem : Item.Ok (m.tasks owner.key) ⟨owner, place⟩ :=
        inv.fits ⟨owner, place⟩ (by simp [hitems])
      subst hm
      exact ⟨hplaces (hone hitems hitems' (hadvance.not_lost hitem)),
        kept_update kept.kept (hadvance.fixed.2.2.1.trans (kept.kept _))⟩
  | @promote owner rest hitems hitems' htasks _ _ =>
      refine ⟨hplaces (hone hitems hitems' (by simp)), ?_⟩
      rw [htasks]
      exact kept_update kept.kept (kept.kept owner.key)
  | release hitems hitems' hm =>
      refine ⟨hplaces (hone hitems hitems' (by simp)), fun key => ?_⟩
      rw [hm, dropPermit_tasks]
      exact kept.kept key
  | @drop owner hitems _ =>
      exact absurd rfl (hbefore ⟨owner, .closing (.release none)⟩ (by simp [hitems])).2
  | @publish owner result hitems hm =>
      subst hm
      refine ⟨hplaces fun i hi => hbefore i ?_, kept_update kept.kept (kept.kept owner.key)⟩
      rw [hitems]
      exact Multiset.mem_add.mpr (.inr hi)

end Kept

theorem ExecutorReachable.kept (h : ExecutorReachable config s) : Kept s.memory s.items := by
  refine Transition.Reachable.invariant_of (P := fun s : System => Kept s.memory s.items)
    (I := ExecutorReachable config) (fun s h => h) ?_ ?_ h
  · rintro s rfl
    exact ⟨fun i hi => absurd hi (Multiset.notMem_zero i), fun _ => rfl⟩
  · intro s s' reachable inv step
    obtain ⟨items, items', others, hbefore, hafter, change⟩ := step.ownership
    have ownership := reachable.ownership
    rw [hbefore] at inv ownership
    rw [hafter]
    refine change.kept (fun haccepting i hi hplace => ?_) ownership inv
    obtain ⟨-, hqueue, hready⟩ := reachable.closed haccepting
    have hmem : i ∈ s.items := hbefore ▸ Multiset.mem_add.mpr (.inl hi)
    exact (System.not_pending hmem hqueue hready).2 hplace

/-- Every execution admitted and not yet published has exactly one owner. -/
theorem ExecutorReachable.owned_once (h : ExecutorReachable config s) {key : Nat}
    (admitted : (s.memory.tasks key).admitted = true)
    (unset : (s.memory.tasks key).completion = none) : (s.items.map Item.key).count key = 1 :=
  Multiset.count_eq_one_of_mem h.ownership.keys
    (h.ownership.owned key admitted unset (h.kept.kept key))

/-! ### Before the identifiers wrap around -/

/-- The active map holds exactly the permits the owners hold. -/
def Exact (m : Memory) (items : Multiset Item) : Prop :=
  (m.state.active : Multiset (UInt64 × Nat)) = heldPermits (items.map Item.owner)

section Exact

variable {m m' : Memory} {items items' others : Multiset Item}

/-- The identifier of an owner is the identifier of its key. -/
theorem Ownership.id_eq (inv : Ownership m items) {i : Item} (hi : i ∈ items) :
    i.owner.id = idOf i.key ∧ i.key < m.state.submissions := by
  have fits := inv.fits i hi
  obtain ⟨hid, hlt⟩ := inv.ids i.key fits.admitted
  exact ⟨fits.id.trans hid, hlt⟩

/-- Permits of distinct keys have distinct identifiers. -/
theorem Ownership.permit_id_ne (inv : Ownership m items)
    (bound : m.state.submissions < UInt64.size) {key : Nat} (hkey : key + 1 < UInt64.size)
    (sub : ∀ i ∈ others, i ∈ items ∧ i.key ≠ key) {entry : UInt64 × Nat}
    (h : entry ∈ heldPermits (others.map Item.owner)) : entry.1 ≠ idOf key := by
  obtain ⟨owner, howner, -, rfl⟩ := mem_heldPermits.mp h
  obtain ⟨i, hi, rfl⟩ := Multiset.mem_map.mp howner
  obtain ⟨hmem, hne⟩ := sub i hi
  obtain ⟨hid, hlt⟩ := inv.id_eq hmem
  intro heq
  exact hne (idOf_inj (by omega) hkey (hid.symm.trans heq))

/-- Apart from one item, no permit has its identifier. -/
theorem Ownership.others_id_ne {i : Item} (inv : Ownership m ({i} + others))
    (bound : m.state.submissions < UInt64.size) {entry : UInt64 × Nat}
    (h : entry ∈ heldPermits (others.map Item.owner)) : entry.1 ≠ i.owner.id := by
  obtain ⟨hid, hlt⟩ := inv.id_eq (i := i) (by simp)
  rw [hid]
  exact inv.permit_id_ne bound (by omega)
    (fun j hj => ⟨Multiset.mem_add.mpr (.inr hj), inv.key_ne hj⟩) h

theorem remove_eq_self {active : ActiveMap} {id : UInt64} (h : ∀ entry ∈ active, entry.1 ≠ id) :
    active.remove id = active := by
  rw [ActiveMap.remove, List.filter_eq_self]
  intro entry hentry
  simpa using h entry hentry

/-- A new entry of a new identifier replaces none. -/
theorem coe_insert {active : ActiveMap} {id : UInt64} (h : ∀ entry ∈ active, entry.1 ≠ id)
    (key : Nat) :
    (active.insert id key : Multiset (UInt64 × Nat)) = {(id, key)} + active := by
  rw [ActiveMap.insert, remove_eq_self h]
  rfl

/-- Dropping an owner's permit takes exactly its entry out. -/
theorem dropPermit_exact {owner : TaskOwner} {held : Multiset TaskOwner}
    (h : (m.state.active : Multiset (UInt64 × Nat)) = heldPermits ({owner} + held))
    (other : ∀ entry ∈ heldPermits held, entry.1 ≠ owner.id) :
    ((m.dropPermit owner).state.active : Multiset (UInt64 × Nat)) = heldPermits held := by
  rw [heldPermits_add] at h
  unfold Memory.dropPermit
  split
  · next hactive =>
    have hfilter := congrArg (Multiset.filter fun entry => entry.1 ≠ owner.id) h
    rw [heldPermits_active hactive, Multiset.filter_add, Multiset.filter_singleton,
      if_neg (by simp), Multiset.empty_eq_zero, zero_add,
      Multiset.filter_eq_self.mpr other] at hfilter
    exact hfilter
  · next hother =>
    rw [heldPermits_other hother, zero_add] at h
    exact h

theorem OwnershipChange.exact (change : OwnershipChange m items m' items')
    (nextId : m.state.nextId = idOf m.state.submissions)
    (bound : m'.state.submissions < UInt64.size)
    (inv : Ownership m (items + others)) (exact : Exact m (items + others)) :
    Exact m' (items' + others) := by
  rw [Exact, Multiset.map_add, heldPermits_add] at exact ⊢
  cases change with
  | relocate hactive hsubmissions hinterference hmoves =>
      rw [hactive, map_owner_of_moves hmoves]
      exact exact
  | admission runner deadline permit place htasks hsubmissions hitems hpermit =>
      subst hitems
      rw [hsubmissions] at bound
      -- Below the bound the id is new, so the insertion replaces no entry.
      have hnew : ∀ entry ∈ m.state.active, entry.1 ≠ m.state.nextId := by
        intro entry hentry
        rw [nextId]
        have hheld : entry ∈ heldPermits ((items + others).map Item.owner) := by
          rw [Multiset.map_add, heldPermits_add, ← exact]
          exact Multiset.mem_coe.mpr hentry
        exact inv.permit_id_ne (Nat.lt_of_succ_lt bound) bound
          (fun i hi => ⟨hi, Nat.ne_of_lt (inv.id_eq hi).2⟩) hheld
      rw [Multiset.map_add, Multiset.map_singleton, heldPermits_add, add_assoc, ← exact]
      rcases hpermit with ⟨rfl, -, hactive⟩ | ⟨rfl, -, hactive⟩
      · rw [hactive, heldPermits_active rfl]
        exact coe_insert hnew _
      · rw [hactive, heldPermits_other (by simp [SchedulerState.newOwner]), zero_add]
  | @advance owner place place' e' rest hadvance hitems hitems' hm =>
      subst hitems hitems' hm
      rw [Multiset.map_add, Multiset.map_singleton] at exact ⊢
      exact exact
  | @promote owner rest hitems hitems' htasks hactive hsubmissions =>
      subst hitems hitems'
      rw [hsubmissions] at bound
      rw [add_assoc] at inv
      have hqueued : owner.permit = some .queued :=
        (inv.fits ⟨owner, .waiting⟩ (by simp)).place.1
      rw [Multiset.map_add, Multiset.map_singleton, heldPermits_add,
        heldPermits_other (by simp [hqueued]), zero_add, ← heldPermits_add,
        ← Multiset.map_add] at exact
      -- The owner was queued, so no entry has its id yet.
      have hnew : ∀ entry ∈ m.state.active, entry.1 ≠ owner.id := fun entry hentry =>
        inv.others_id_ne bound (exact ▸ hentry)
      rw [hactive, Multiset.map_add, Multiset.map_singleton, heldPermits_add,
        heldPermits_active rfl, add_assoc, ← heldPermits_add, ← Multiset.map_add, ← exact]
      exact coe_insert hnew _
  | @release owner result rest hitems hitems' hm =>
      subst hitems hitems' hm
      rw [dropPermit_submissions] at bound
      rw [add_assoc] at inv
      rw [Multiset.map_add, Multiset.map_singleton, ← heldPermits_add, add_assoc,
        ← Multiset.map_add] at exact
      rw [Multiset.map_add, Multiset.map_singleton, heldPermits_add,
        heldPermits_other (by simp), zero_add, ← heldPermits_add, ← Multiset.map_add]
      exact dropPermit_exact exact fun entry h => inv.others_id_ne bound h
  | @drop owner hitems hm =>
      subst hitems hm
      change (m.dropPermit owner).state.submissions < UInt64.size at bound
      rw [dropPermit_submissions] at bound
      rw [add_assoc] at inv
      rw [Multiset.map_add, Multiset.map_singleton, ← heldPermits_add, add_assoc,
        ← Multiset.map_add] at exact
      rw [← heldPermits_add, ← Multiset.map_add]
      exact dropPermit_exact exact fun entry h => inv.others_id_ne bound h
  | @publish owner result hitems hm =>
      subst hitems hm
      have hnone : owner.permit = none :=
        (inv.fits ⟨owner, .closing (.publish result)⟩ (by simp)).place.1
      rw [Multiset.map_add, Multiset.map_singleton, heldPermits_add,
        heldPermits_other (by simp [hnone]), zero_add] at exact
      exact exact

end Exact

theorem ExecutorReachable.exact (h : ExecutorReachable config s)
    (bound : s.memory.state.submissions < UInt64.size) : Exact s.memory s.items := by
  have inv : s.memory.state.submissions < UInt64.size → Exact s.memory s.items := by
    refine Transition.Reachable.invariant_of
      (P := fun s : System => s.memory.state.submissions < UInt64.size →
        Exact s.memory s.items)
      (I := fun s : System => Fifo s.memory.state ∧ Ownership s.memory s.items)
      (fun s h => ⟨ExecutorReachable.fifo h, ExecutorReachable.ownership h⟩) ?_ ?_ h
    · rintro s rfl -
      rfl
    · intro s s' ⟨fifo, ownership⟩ inv step bound
      obtain ⟨items, items', others, hbefore, hafter, change⟩ := step.ownership
      have exact := inv (Nat.lt_of_le_of_lt step.scheduler.submissions bound)
      rw [hbefore] at ownership exact
      rw [hafter]
      exact change.exact fifo.nextId bound ownership exact
  exact inv bound

/-! ### The admission invariant -/

/-- Owners of distinct keys have distinct identifiers. -/
theorem nodup_ids {owners : List TaskOwner} {bound : Nat} (hbound : bound < UInt64.size)
    (keys : (owners.map TaskOwner.key).Nodup)
    (ids : ∀ owner ∈ owners, owner.id = idOf owner.key ∧ owner.key < bound) :
    (owners.map TaskOwner.id).Nodup := by
  refine List.Nodup.map_on (fun a ha b hb heq => ?_) (List.Nodup.of_map _ keys)
  obtain ⟨hida, hlta⟩ := ids a ha
  obtain ⟨hidb, hltb⟩ := ids b hb
  have hkey : a.key = b.key :=
    idOf_inj (by omega) (by omega) (by rw [← hida, ← hidb]; exact heq)
  exact List.inj_on_of_nodup_map keys ha hb hkey

/-- **Admission.** In every reachable state, as long as fewer than 2^64 identifiers
were allocated: the limits are respected; the active map holds exactly the permits
that owners hold; ready identifiers are active, queued ones are not, and none occurs
twice; and every admitted execution without a published result has exactly one owner
among the queue, `ready` and the threads. -/
theorem admission_invariant (config : AdmissionConfig) (s : System)
    (reachable : ExecutorReachable config s)
    (bound : s.memory.state.submissions < UInt64.size) :
    s.memory.state.active.length ≤ config.activeLimit ∧
      s.memory.state.queue.length ≤ config.queueLimit ∧
      (s.memory.state.active : Multiset (UInt64 × Nat)) =
        heldPermits (s.items.map Item.owner) ∧
      (∀ owner ∈ s.memory.state.ready, owner.id ∈ s.memory.state.active.map Prod.fst) ∧
      (∀ owner ∈ s.memory.state.queue, owner.id ∉ s.memory.state.active.map Prod.fst) ∧
      ((s.memory.state.ready ++ s.memory.state.queue).map TaskOwner.id).Nodup ∧
      ∀ key, (s.memory.tasks key).admitted = true → (s.memory.tasks key).completion = none →
        (s.items.map Item.key).count key = 1 := by
  have limits := reachable.limits
  have fifo := reachable.fifo
  have ownership := reachable.ownership
  have exact := reachable.exact bound
  have hwaiting : ∀ owner ∈ s.memory.state.queue, (⟨owner, .waiting⟩ : Item) ∈ s.items :=
    fun owner h => by
      simp [System.items, SchedulerState.items, mem_itemsAt, h]
  have hready : ∀ owner ∈ s.memory.state.ready, (⟨owner, .ready⟩ : Item) ∈ s.items :=
    fun owner h => by
      simp [System.items, SchedulerState.items, mem_itemsAt, h]
  refine ⟨limits.active, limits.queue, exact, fun owner h => ?_, fun owner h hmem => ?_,
    ?_, fun key ha hc => ?_⟩
  · have hpermit : owner.permit = some .active := (ownership.fits _ (hready owner h)).place.1
    have hentry : (owner.id, owner.key) ∈ heldPermits (s.items.map Item.owner) :=
      mem_heldPermits.mpr
        ⟨owner, Multiset.mem_map_of_mem Item.owner (hready owner h), hpermit, rfl⟩
    rw [← exact] at hentry
    exact List.mem_map_of_mem (f := Prod.fst) (Multiset.mem_coe.mp hentry)
  · obtain ⟨entry, hentry, hid⟩ := List.mem_map.mp hmem
    obtain ⟨others, hothers⟩ := Multiset.exists_cons_of_mem (hwaiting owner h)
    have hpermit : owner.permit = some .queued := (ownership.fits _ (hwaiting owner h)).place.1
    have hheld : entry ∈ heldPermits (s.items.map Item.owner) :=
      exact ▸ Multiset.mem_coe.mpr hentry
    rw [← Multiset.singleton_add] at hothers
    rw [hothers] at ownership hheld
    rw [Multiset.map_add, Multiset.map_singleton, heldPermits_add,
      heldPermits_other (by simp [hpermit]), zero_add] at hheld
    exact ownership.others_id_ne bound hheld hid
  · have hline : (s.memory.state.ready ++ s.memory.state.queue).Sublist
        (s.memory.state.dispatched ++ s.memory.state.ready ++ s.memory.state.queue) := by
      rw [List.append_assoc]
      exact List.sublist_append_right _ _
    obtain ⟨hsorted, hallocated, hids⟩ := fifo.leave hline
    refine nodup_ids bound (hsorted.imp Nat.ne_of_lt) fun owner h => ⟨hids owner h, ?_⟩
    exact hallocated _ (List.mem_map_of_mem h)
  · exact reachable.owned_once ha hc

/-- One task is ready, a second one waits behind it. -/
def sampleConfig : AdmissionConfig where
  activeLimit := 1
  activeLimit_pos := by decide
  queueLimit := 1

def sampleAdmitted : System where
  memory :=
    { Memory.initial with
      state :=
        { SchedulerState.new with
          queue := [⟨2, 1, .inProcess, none, some .queued⟩]
          ready := [⟨1, 0, .inProcess, none, some .active⟩]
          active := [(1, 0)]
          nextId := 3
          submissions := 2 }
      tasks :=
        Function.update
          (Function.update (fun _ => .absent) 0 (.fresh 1 .inProcess none .active))
          1 (.fresh 2 .inProcess none .queued) }
  threads := [{ pc := .ensureManager }, { pc := .ensureManager }]

theorem sampleAdmitted_reachable : ExecutorReachable sampleConfig sampleAdmitted := by
  refine ⟨System.initial, rfl, ?_⟩
  refine .head (.environment [] (.submit .inProcess none)) ?_
  refine .head (.thread [] [] (.pc (.submit (.admitted rfl rfl)))) ?_
  refine .head (.environment [_] (.submit .inProcess none)) ?_
  exact .head (.thread [_] [] (.pc (.submit (.admitted rfl rfl)))) .refl

/-- The second task is owned once, by the queue. -/
theorem admission_invariant_admitted :
    sampleAdmitted.memory.state.active.length ≤ sampleConfig.activeLimit ∧
      sampleAdmitted.memory.state.queue.length ≤ sampleConfig.queueLimit ∧
      (sampleAdmitted.items.map Item.key).count 1 = 1 := by
  obtain ⟨hactive, hqueue, -, -, -, -, howned⟩ :=
    admission_invariant sampleConfig sampleAdmitted sampleAdmitted_reachable (by decide)
  exact ⟨hactive, hqueue, howned 1 rfl rfl⟩

end Libdeno.Executor
