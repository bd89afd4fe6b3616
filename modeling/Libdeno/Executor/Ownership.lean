import Mathlib.Data.Multiset.MapFold
import Mathlib.Data.Multiset.Filter
import Libdeno.Executor.System

/-!
# Libdeno.Executor.Ownership

Who owns an execution. Every `TaskOwner` of the system is an *item*: it lies in the
queue, in `ready`, or somewhere in a thread, and its place says how far its execution
has come. `Ownership` relates the multiset of all items to the executions and to the
active map:

* no two items own the same execution, and every admitted execution that is neither
  published nor dropped has one;
* an item's place fits the state of its execution;
* every entry of the active map belongs to an item that still holds an active permit.

`OwnershipChange` lists what a thread's step can do to the items it reaches. The
items of the other threads are an unknown summand in `OwnershipChange.preserves`.
-/

namespace Libdeno.Executor

open Supervisor

/-! ### Items -/

/-- Where an owner is. -/
inductive Place
  | waiting
  | ready
  /-- Taken from `ready`, `begin_start` not yet called. -/
  | dispatched
  | running
  | refused
  /-- Taken out of the queue or of `ready` to be closed. -/
  | detached
  /-- Taken from `ready` by a manager that exits. -/
  | abandoned
  | closing (stage : CloseStage)

/-- An owner with its place. -/
structure Item where
  owner : TaskOwner
  place : Place

/-- The items of some owners at one place. -/
def itemsAt (place : Place) (owners : List TaskOwner) : Multiset Item :=
  ↑(owners.map fun owner => Item.mk owner place)

@[simp] theorem itemsAt_nil (place : Place) : itemsAt place [] = 0 := rfl

@[simp] theorem itemsAt_cons (place : Place) (owner : TaskOwner) (owners : List TaskOwner) :
    itemsAt place (owner :: owners) = {⟨owner, place⟩} + itemsAt place owners := rfl

@[simp] theorem itemsAt_append (place : Place) (first second : List TaskOwner) :
    itemsAt place (first ++ second) = itemsAt place first + itemsAt place second := by
  simp [itemsAt, ← Multiset.coe_add]

theorem mem_itemsAt {place : Place} {owners : List TaskOwner} {i : Item} :
    i ∈ itemsAt place owners ↔ i.owner ∈ owners ∧ i.place = place := by
  obtain ⟨owner, place'⟩ := i
  simp only [itemsAt, Multiset.mem_coe, List.mem_map, Item.mk.injEq]
  constructor
  · rintro ⟨o, ho, rfl, rfl⟩
    exact ⟨ho, rfl⟩
  · rintro ⟨ho, rfl⟩
    exact ⟨owner, ho, rfl, rfl⟩

/-- A list of owners is the part a test selects and the part it does not. -/
theorem itemsAt_filter (place : Place) (owners : List TaskOwner) (p : TaskOwner → Bool) :
    itemsAt place owners =
      itemsAt place (owners.filter fun o => !p o) + itemsAt place (owners.filter p) := by
  induction owners with
  | nil => rfl
  | cons o owners ih =>
      cases h : p o with
      | true =>
          rw [List.filter_cons_of_neg (by simp [h]), List.filter_cons_of_pos h, itemsAt_cons,
            itemsAt_cons, ih]
          exact add_left_comm _ _ _
      | false =>
          rw [List.filter_cons_of_pos (by simp [h]), List.filter_cons_of_neg (by simp [h]),
            itemsAt_cons, itemsAt_cons, ih, add_assoc]

/-- The owner a test finds, apart from the others. -/
theorem itemsAt_find (place : Place) {owners : List TaskOwner} {p : TaskOwner → Bool}
    {owner : TaskOwner} (h : owners.find? p = some owner) :
    itemsAt place owners = {⟨owner, place⟩} + itemsAt place (owners.eraseP p) := by
  induction owners with
  | nil => cases h
  | cons o owners ih =>
      cases hp : p o with
      | true =>
          rw [List.find?_cons_of_pos hp] at h
          obtain rfl := Option.some.inj h
          rw [List.eraseP_cons_of_pos hp, itemsAt_cons]
      | false =>
          rw [List.find?_cons_of_neg (by simp [hp])] at h
          rw [List.eraseP_cons_of_neg (by simp [hp]), itemsAt_cons, itemsAt_cons, ih h]
          exact add_left_comm _ _ _

def SchedulerState.items (s : SchedulerState) : Multiset Item :=
  itemsAt .waiting s.queue + itemsAt .ready s.ready

def Pc.items : Pc → Multiset Item
  | .collect _ expired _ _ | .promote expired _ => itemsAt .detached expired
  | .decided exit dispatch => itemsAt (if exit then .abandoned else .dispatched) dispatch.toList
  | .cancelMarked _ _ _ owner _ => itemsAt .detached owner.toList
  | .classify _ drained _ | .classifyMark _ drained _ _ => itemsAt .detached drained
  | .task owner => itemsAt .dispatched [owner]
  | .refused owner => itemsAt .refused [owner]
  | .executing owner _ | .authorizing owner _ => itemsAt .running [owner]
  | _ => 0

def closingItems (closing : List Closing) : Multiset Item :=
  ↑(closing.map fun c => Item.mk c.owner (.closing c.stage))

@[simp] theorem closingItems_nil : closingItems [] = 0 := rfl

@[simp] theorem closingItems_cons (c : Closing) (closing : List Closing) :
    closingItems (c :: closing) = {⟨c.owner, .closing c.stage⟩} + closingItems closing := rfl

@[simp] theorem closingItems_append (first second : List Closing) :
    closingItems (first ++ second) = closingItems first + closingItems second := by
  simp [closingItems, ← Multiset.coe_add]

def Thread.items (t : Thread) : Multiset Item := t.pc.items + closingItems t.closing

/-- All owners of the system. -/
def System.items (s : System) : Multiset Item :=
  s.memory.state.items + Pool.tally Thread.items s.threads

/-! ### What a place says about its execution -/

/-- The execution is not terminal, nor is its backend's result resolved. -/
def Execution.Open (e : Execution) : Prop :=
  e.control.lifecycle.isTerminal = false ∧ e.resolved = none

/-- No user code was ever allowed to run. -/
def Execution.Unstarted (e : Execution) : Prop := e.entered = false ∧ e.authorised = false

/-- The execution is terminal and `result` agrees with it. -/
def Execution.Settles (e : Execution) (result : Outcome) : Prop :=
  e.control.lifecycle.isTerminal = true ∧
    (Outcome.isOk result = true ↔ e.control.lifecycle = .completed) ∧
    ∀ backendResult, e.resolved = some backendResult →
      ResolvedFrom e.control backendResult e.control.backend result

/-- A place fits the execution. -/
def PlaceOk (e : Execution) (owner : TaskOwner) : Place → Prop
  | .waiting => owner.permit = some .queued ∧ e.Open ∧ e.Unstarted
  | .ready | .dispatched => owner.permit = some .active ∧ e.Open ∧ e.Unstarted
  | .running | .refused => owner.permit = some .active ∧ e.Open
  | .detached | .abandoned | .closing (.release none) => owner.permit ≠ none ∧ e.Open
  | .closing (.mark lifecycle result) =>
      owner.permit ≠ none ∧ e.Open ∧ lifecycle.isTerminal = true ∧ lifecycle ≠ .completed ∧
        Outcome.isOk result = false
  | .closing (.release (some result)) => owner.permit ≠ none ∧ e.Settles result
  | .closing (.publish result) => owner.permit = none ∧ e.Settles result

/-- An item fits its execution. -/
structure Item.Ok (e : Execution) (i : Item) : Prop where
  admitted : e.admitted = true
  unset : e.completion = none
  kept : e.dropped = false
  id : i.owner.id = e.control.id
  runner : i.owner.runner = e.control.backend
  place : PlaceOk e i.owner i.place

/-- What holds of an execution by itself. -/
structure Execution.Ok (e : Execution) : Prop where
  coherent : e.control.Coherent
  entered : e.control.lifecycle = .started → e.entered = true
  result : ∀ result, e.completion = some result → e.Settles result
  published : e.published = if e.completion.isSome then 1 else 0
  resolved : e.resolved ≠ none → e.control.lifecycle.isTerminal = true
  dropped : e.dropped = true → e.control.lifecycle.isTerminal = false
  absent : e.admitted = false → e.completion = none ∧ e.control.lifecycle.isTerminal = false

/-! ### Interference -/

/-- What a thread may do to an execution it does not own. -/
inductive Interfere (e : Execution) : Execution → Prop
  | mark (reason : CancelReason) :
      Interfere e (e.withControl (e.control.markCancelling reason).2)
  | insertReason (reason : CancelReason) : Interfere e (e.insertReason reason)
  | storeRequested : Interfere e e.storeRequested

/-- Any amount of it. -/
abbrev Interference : Execution → Execution → Prop := Relation.ReflTransGen Interfere

theorem interference_markCancelling (e : Execution) (reason : CancelReason) :
    Interference e (e.markCancelling reason) := by
  have hmark : Interference e (e.withControl (e.control.markCancelling reason).2) :=
    .single (.mark reason)
  unfold Execution.markCancelling
  split
  · exact (hmark.tail (.insertReason reason)).tail .storeRequested
  · exact hmark

section Interference

variable {e e' : Execution} {i : Item}

/-- The fields interference leaves alone. -/
theorem Interfere.fixed (h : Interfere e e') :
    e'.admitted = e.admitted ∧ e'.completion = e.completion ∧ e'.dropped = e.dropped ∧
      e'.published = e.published ∧ e'.resolved = e.resolved ∧ e'.authorised = e.authorised := by
  cases h <;> exact ⟨rfl, rfl, rfl, rfl, rfl, rfl⟩

theorem Interfere.control (h : Interfere e e') : ControlChange e.control e'.control := by
  cases h with
  | mark reason => exact markCancelling_change e.control reason
  | insertReason reason => exact .insertReason reason
  | storeRequested => exact .storeRequested

/-- Interference never ends an execution. -/
theorem Interfere.isTerminal (h : Interfere e e') :
    e'.control.lifecycle.isTerminal = e.control.lifecycle.isTerminal := by
  cases h with
  | mark reason =>
      show (e.control.markCancelling reason).2.lifecycle.isTerminal = _
      unfold TaskControl.markCancelling
      split
      · rfl
      · next hopen =>
        split
        · rfl
        · next hnone =>
          rw [Bool.not_eq_true] at hopen
          rw [hopen]
          rfl
  | insertReason reason => rfl
  | storeRequested => rfl

/-- Interference never starts an execution. -/
theorem Interfere.started (h : Interfere e e') (hs : e'.control.lifecycle = .started) :
    e.control.lifecycle = .started := by
  cases h with
  | mark reason =>
      change (e.control.markCancelling reason).2.lifecycle = .started at hs
      unfold TaskControl.markCancelling at hs
      split at hs
      · exact hs
      · split at hs
        · exact hs
        · cases hs
  | insertReason reason => exact hs
  | storeRequested => exact hs

theorem Interfere.entered (h : Interfere e e') (ok : e.Ok) : e'.entered = e.entered := by
  cases h with
  | mark reason =>
      have hstarted := Interfere.started (.mark (e := e) reason)
      cases hentered : e.entered with
      | true => simp [Execution.withControl, hentered]
      | false =>
          have hnot : e.control.lifecycle ≠ .started := fun hs => by
            simp [ok.entered hs] at hentered
          have hnot' : (e.control.markCancelling reason).2.lifecycle ≠ .started :=
            fun hs => hnot (hstarted hs)
          simp [Execution.withControl, hentered, hnot']
  | insertReason reason => rfl
  | storeRequested => rfl

theorem Interfere.settles (h : Interfere e e') {result : Outcome} (hs : e.Settles result) :
    e'.Settles result := by
  obtain ⟨hterminal, hcompleted, hresolved⟩ := hs
  obtain ⟨hlifecycle, hreason⟩ := h.control.terminal_stable hterminal
  obtain ⟨-, hbackend, -⟩ := h.control.fixed
  obtain ⟨-, -, -, -, hres, -⟩ := h.fixed
  refine ⟨by rw [hlifecycle, hterminal], by rw [hlifecycle]; exact hcompleted,
    fun backendResult hb reason hr => ?_⟩
  rw [hres] at hb
  rw [hreason] at hr
  rw [hresolved backendResult hb reason hr]
  simp only [hbackend, TaskControl.cancelledResult,
    TaskControl.reasonFailureWithPartialAndMetadata, TaskControl.reportWithMetadata]

theorem Interfere.ok (h : Interfere e e') (ok : e.Ok) : e'.Ok := by
  obtain ⟨hadmitted, hcompletion, hdropped, hpublished, hresolved, -⟩ := h.fixed
  have hterminal := h.isTerminal
  refine ⟨h.control.coherent ok.coherent, fun hs => ?_, fun result hr => ?_, ?_, ?_, ?_, ?_⟩
  · rw [h.entered ok]
    exact ok.entered (h.started hs)
  · rw [hcompletion] at hr
    exact h.settles (ok.result result hr)
  · rw [hpublished, hcompletion]
    exact ok.published
  · rw [hresolved, hterminal]
    exact ok.resolved
  · rw [hdropped, hterminal]
    exact ok.dropped
  · rw [hadmitted, hcompletion, hterminal]
    exact ok.absent

theorem Interfere.place (h : Interfere e e') (ok : e.Ok) {owner : TaskOwner} {place : Place}
    (hp : PlaceOk e owner place) : PlaceOk e' owner place := by
  obtain ⟨-, -, -, -, hresolved, hauthorised⟩ := h.fixed
  have hopen : e.Open → e'.Open := fun ⟨hl, hr⟩ => ⟨by rw [h.isTerminal, hl], by rw [hresolved, hr]⟩
  have hunstarted : e.Unstarted → e'.Unstarted := fun ⟨he, ha⟩ =>
    ⟨by rw [h.entered ok, he], by rw [hauthorised, ha]⟩
  cases place with
  | waiting => exact ⟨hp.1, hopen hp.2.1, hunstarted hp.2.2⟩
  | ready => exact ⟨hp.1, hopen hp.2.1, hunstarted hp.2.2⟩
  | dispatched => exact ⟨hp.1, hopen hp.2.1, hunstarted hp.2.2⟩
  | running => exact ⟨hp.1, hopen hp.2⟩
  | refused => exact ⟨hp.1, hopen hp.2⟩
  | detached => exact ⟨hp.1, hopen hp.2⟩
  | abandoned => exact ⟨hp.1, hopen hp.2⟩
  | closing stage =>
      cases stage with
      | mark lifecycle result => exact ⟨hp.1, hopen hp.2.1, hp.2.2⟩
      | release result =>
          cases result with
          | none => exact ⟨hp.1, hopen hp.2⟩
          | some result => exact ⟨hp.1, h.settles hp.2⟩
      | publish result => exact ⟨hp.1, h.settles hp.2⟩

theorem Interfere.item (h : Interfere e e') (ok : e.Ok) (hi : i.Ok e) : i.Ok e' := by
  obtain ⟨hadmitted, hcompletion, hdropped, -, -, -⟩ := h.fixed
  obtain ⟨hid, hbackend, -⟩ := h.control.fixed
  exact ⟨by rw [hadmitted, hi.admitted], by rw [hcompletion, hi.unset],
    by rw [hdropped, hi.kept], by rw [hid, hi.id], by rw [hbackend, hi.runner],
    h.place ok hi.place⟩

theorem interference_ok (h : Interference e e') (ok : e.Ok) : e'.Ok := by
  induction h with
  | refl => exact ok
  | tail _ last ih => exact last.ok ih

theorem interference_item (h : Interference e e') (ok : e.Ok) (hi : i.Ok e) : i.Ok e' := by
  induction h with
  | refl => exact hi
  | tail before last ih => exact last.item (interference_ok before ok) ih

theorem interference_fixed (h : Interference e e') :
    e'.admitted = e.admitted ∧ e'.completion = e.completion ∧ e'.dropped = e.dropped ∧
      e'.control.id = e.control.id := by
  induction h with
  | refl => exact ⟨rfl, rfl, rfl, rfl⟩
  | tail _ last ih =>
      obtain ⟨hadmitted, hcompletion, hdropped, -, -, -⟩ := last.fixed
      obtain ⟨hid, -, -⟩ := last.control.fixed
      rw [hadmitted, hcompletion, hdropped, hid]
      exact ih

end Interference

/-! ### Moves -/

/-- How an owner may change its place while its execution is only interfered with. An
owner is abandoned only where nothing is accepted any more (`closed`). -/
inductive Place.Moves (closed : Prop) : Place → Place → Prop
  | stay {place : Place} : Place.Moves closed place place
  | detachWaiting : Place.Moves closed .waiting .detached
  | detachReady : Place.Moves closed .ready .detached
  | dispatch : Place.Moves closed .ready .dispatched
  | abandon : closed → Place.Moves closed .ready .abandoned
  | giveUp : Place.Moves closed .abandoned (.closing (.release none))
  | close {place : Place} {lifecycle : ExecutionState} {result : Outcome} :
      (∀ stage, place ≠ .closing stage) → lifecycle.isTerminal = true →
      lifecycle ≠ .completed → Outcome.isOk result = false →
      Place.Moves closed place (.closing (.mark lifecycle result))

theorem Place.Moves.ok {closed : Prop} {place place' : Place} (h : Place.Moves closed place place')
    {e : Execution} {owner : TaskOwner} (hp : PlaceOk e owner place) :
    PlaceOk e owner place' := by
  cases h with
  | stay => exact hp
  | detachWaiting => exact ⟨by simp [hp.1], hp.2.1⟩
  | detachReady => exact ⟨by simp [hp.1], hp.2.1⟩
  | dispatch => exact hp
  | abandon _ => exact ⟨by simp [hp.1], hp.2.1⟩
  | giveUp => exact hp
  | close hclosing hterminal hfailed herror =>
      have hopen : owner.permit ≠ none ∧ e.Open := by
        cases place with
        | waiting => exact ⟨by simp [hp.1], hp.2.1⟩
        | ready => exact ⟨by simp [hp.1], hp.2.1⟩
        | dispatched => exact ⟨by simp [hp.1], hp.2.1⟩
        | running => exact ⟨by simp [hp.1], hp.2⟩
        | refused => exact ⟨by simp [hp.1], hp.2⟩
        | detached => exact hp
        | abandoned => exact hp
        | closing stage => exact absurd rfl (hclosing stage)
      exact ⟨hopen.1, hopen.2, hterminal, hfailed, herror⟩

/-- An item moves; its owner stays. -/
def Item.Moves (closed : Prop) (i i' : Item) : Prop :=
  i'.owner = i.owner ∧ Place.Moves closed i.place i'.place

/-- How the holder of an owner may change its execution, together with its place. -/
inductive Advance (owner : TaskOwner) (e : Execution) : Place → Execution → Place → Prop
  | start {now : Nat} {requested : Option CancelReason} {control : TaskControl} :
      e.control.beginStart now = (true, requested, control) →
      Advance owner e .dispatched (e.withControl control) .running
  | refuse {now : Nat} {requested : Option CancelReason} {control : TaskControl} :
      e.control.beginStart now = (false, requested, control) →
      Advance owner e .dispatched (e.withControl control) .refused
  | authorize (authorizes : Bool) : Advance owner e .running (e.authorize authorizes) .running
  | started : Advance owner e .running (e.withControl e.control.markStarted.2) .running
  | resolve {backendResult result : Outcome} {lifecycle : ExecutionState}
      {control : TaskControl} :
      e.control.resolveBackendResult backendResult owner.runner =
        (some (lifecycle, result), control) →
      Advance owner e .running (e.resolve control backendResult)
        (.closing (.release (some result)))
  | resolveRefused {backendResult : Outcome} {control : TaskControl} :
      e.control.resolveBackendResult backendResult owner.runner = (none, control) →
      Advance owner e .running e (.closing (.release none))
  | mark {lifecycle : ExecutionState} {result : Outcome} {control : TaskControl} :
      e.control.markTerminal lifecycle = (true, control) →
      Advance owner e (.closing (.mark lifecycle result)) (e.withControl control)
        (.closing (.release (some result)))
  | markRefused {lifecycle : ExecutionState} {result : Outcome} {control : TaskControl} :
      e.control.markTerminal lifecycle = (false, control) →
      Advance owner e (.closing (.mark lifecycle result)) e (.closing (.release none))

section Advances

variable {e e' : Execution} {owner : TaskOwner} {place place' : Place}

/-- The fields an advance leaves alone. -/
theorem Advance.fixed (h : Advance owner e place e' place') :
    e'.admitted = e.admitted ∧ e'.completion = e.completion ∧ e'.dropped = e.dropped ∧
      e'.published = e.published := by
  cases h <;> exact ⟨rfl, rfl, rfl, rfl⟩

theorem markTerminal_true {c c' : TaskControl} {lifecycle : ExecutionState}
    (h : c.markTerminal lifecycle = (true, c')) :
    c.lifecycle.isTerminal = false ∧ c' = { c with lifecycle } := by
  unfold TaskControl.markTerminal at h
  split at h
  · cases h
  · next hopen => exact ⟨by simpa using hopen, (Prod.mk.inj h).2.symm⟩

theorem markTerminal_false {c c' : TaskControl} {lifecycle : ExecutionState}
    (h : c.markTerminal lifecycle = (false, c')) : c.lifecycle.isTerminal = true := by
  unfold TaskControl.markTerminal at h
  split at h
  · next hterminal => exact hterminal
  · cases h

/-- An advance is made of changes the control allows. -/
theorem Advance.control (h : Advance owner e place e' place')
    (hp : PlaceOk e owner place) : ControlChange e.control e'.control := by
  cases h with
  | @start now requested control hbegin =>
      have hchange := beginStart_change e.control now
      rwa [hbegin] at hchange
  | @refuse now requested control hbegin =>
      have hchange := beginStart_change e.control now
      rwa [hbegin] at hchange
  | authorize authorizes => exact .unchanged
  | started => exact markStarted_change e.control
  | resolve hresolve => exact resolveBackendResult_change hresolve
  | resolveRefused hresolve => exact .unchanged
  | mark hmark =>
      obtain ⟨-, -, hterminal, hfailed, -⟩ := hp
      have hchange := markTerminal_change e.control hterminal hfailed
      rwa [hmark] at hchange
  | markRefused hmark => exact .unchanged

/-- A section on an execution that is still to be published. -/
theorem Execution.Ok.withControl (ok : e.Ok) {control : TaskControl}
    (change : ControlChange e.control control) (admitted : e.admitted = true)
    (unset : e.completion = none) (kept : e.dropped = false) (unresolved : e.resolved = none) :
    (e.withControl control).Ok where
  coherent := change.coherent ok.coherent
  entered hs := by
    change control.lifecycle = .started at hs
    simp [Execution.withControl, hs]
  result result hr := by
    change e.completion = some result at hr
    rw [unset] at hr
    cases hr
  published := ok.published
  resolved hr := absurd unresolved hr
  dropped hd := by
    change e.dropped = true at hd
    rw [kept] at hd
    cases hd
  absent ha := by
    change e.admitted = false at ha
    rw [admitted] at ha
    cases ha

/-- An advance keeps what holds of the execution and of its item. -/
theorem Advance.ok (h : Advance owner e place e' place') (ok : e.Ok)
    (item : Item.Ok e ⟨owner, place⟩) : e'.Ok ∧ Item.Ok e' ⟨owner, place'⟩ := by
  have change := h.control item.place
  obtain ⟨hadmitted, hunset, hkept, hid, hrunner, hplace⟩ := item
  obtain ⟨hid', hbackend', -⟩ := change.fixed
  -- What the steps share: the control changes as it may, and what an item says of it is kept.
  have hwith : ∀ {control : TaskControl}, ControlChange e.control control →
      e.resolved = none → (e.withControl control).Ok := fun c hr =>
    ok.withControl c hadmitted hunset hkept hr
  have hitem : PlaceOk e' owner place' → Item.Ok e' ⟨owner, place'⟩ := fun hp => by
    obtain ⟨ha, hc, hd, -⟩ := h.fixed
    exact ⟨by rw [ha, hadmitted], by rw [hc, hunset], by rw [hd, hkept],
      by rw [hid', ← hid], by rw [hbackend', ← hrunner], hp⟩
  cases h with
  | @start now requested control hbegin =>
      obtain ⟨hpermit, hopen, -⟩ := hplace
      obtain ⟨-, -, -, hcontrol⟩ := beginStart_granted (congrArg Prod.fst hbegin)
      rw [hbegin] at hcontrol
      dsimp only at hcontrol
      refine ⟨hwith change hopen.2, hitem ⟨hpermit, ?_, hopen.2⟩⟩
      change control.lifecycle.isTerminal = false
      rw [hcontrol]
      split
      · rfl
      · exact hopen.1
  | @refuse now requested control hbegin =>
      obtain ⟨hpermit, hopen, -⟩ := hplace
      have hcontrol := beginStart_refused (congrArg Prod.fst hbegin)
      rw [hbegin] at hcontrol
      dsimp only at hcontrol
      refine ⟨hwith change hopen.2, hitem ⟨hpermit, ?_, hopen.2⟩⟩
      change control.lifecycle.isTerminal = false
      rcases hcontrol with rfl | ⟨-, -, rfl⟩
      · exact hopen.1
      · rfl
  | authorize authorizes =>
      exact ⟨⟨ok.coherent, ok.entered, ok.result, ok.published, ok.resolved, ok.dropped,
        ok.absent⟩, hitem hplace⟩
  | started =>
      obtain ⟨hpermit, hopen⟩ := hplace
      refine ⟨hwith change hopen.2, hitem ⟨hpermit, ?_, hopen.2⟩⟩
      change e.control.markStarted.2.lifecycle.isTerminal = false
      unfold TaskControl.markStarted
      split
      · rfl
      · exact hopen.1
  | @resolve backendResult result lifecycle control hresolve =>
      obtain ⟨hpermit, hopen⟩ := hplace
      obtain ⟨-, rfl, hterminal, hok, -, hfrom⟩ := resolveBackendResult_some hresolve
      have hcontrol := hwith change hopen.2
      -- The result the task is closed with is the one its backend returned.
      have hsettles : (e.resolve { e.control with lifecycle } backendResult).Settles result := by
        refine ⟨hterminal, hok, fun backendResult' hb => ?_⟩
        obtain rfl : backendResult = backendResult' := Option.some.inj hb
        change ResolvedFrom { e.control with lifecycle } backendResult e.control.backend result
        rw [← hrunner]
        exact hfrom
      have hactive : owner.permit = some .active := hpermit
      refine ⟨⟨hcontrol.coherent, hcontrol.entered, fun result' hr => ?_, hcontrol.published,
        fun _ => hterminal, hcontrol.dropped, hcontrol.absent⟩,
        hitem ⟨by simp [hactive], hsettles⟩⟩
      change e.completion = some result' at hr
      rw [hunset] at hr
      cases hr
  -- A result is refused to a terminal task only, and this one is not terminal.
  | resolveRefused hresolve =>
      obtain ⟨-, hopen⟩ := hplace
      obtain ⟨hterminal, -⟩ := resolveBackendResult_none hresolve
      rw [hopen.1] at hterminal
      cases hterminal
  | @mark lifecycle result control hmark =>
      obtain ⟨hpermit, hopen, hterminal, hfailed, herror⟩ := hplace
      obtain ⟨-, rfl⟩ := markTerminal_true hmark
      refine ⟨hwith change hopen.2, hitem ⟨hpermit, hterminal, ?_, ?_⟩⟩
      · simp [Execution.withControl, herror, hfailed]
      · intro backendResult hb
        change e.resolved = some backendResult at hb
        rw [hopen.2] at hb
        cases hb
  | markRefused hmark =>
      obtain ⟨-, hopen, -⟩ := hplace
      have hterminal := markTerminal_false hmark
      rw [hopen.1] at hterminal
      cases hterminal

end Advances

/-! ### Ownership -/

/-- The permits some owners hold, as entries of the active map. -/
def heldPermits (owners : Multiset TaskOwner) : Multiset (UInt64 × Nat) :=
  (owners.filter fun owner => owner.permit = some .active).map fun owner => (owner.id, owner.key)

@[simp] theorem heldPermits_add (first second : Multiset TaskOwner) :
    heldPermits (first + second) = heldPermits first + heldPermits second := by
  rw [heldPermits, Multiset.filter_add, Multiset.map_add, heldPermits, heldPermits]

theorem heldPermits_active {owner : TaskOwner} (h : owner.permit = some .active) :
    heldPermits {owner} = {(owner.id, owner.key)} := by
  rw [heldPermits, Multiset.filter_singleton, if_pos h]
  rfl

theorem heldPermits_other {owner : TaskOwner} (h : owner.permit ≠ some .active) :
    heldPermits {owner} = 0 := by
  rw [heldPermits, Multiset.filter_singleton, if_neg h]
  rfl

theorem mem_heldPermits {owners : Multiset TaskOwner} {entry : UInt64 × Nat} :
    entry ∈ heldPermits owners ↔
      ∃ owner ∈ owners, owner.permit = some .active ∧ (owner.id, owner.key) = entry := by
  simp only [heldPermits, Multiset.mem_map, Multiset.mem_filter, and_assoc]

/-- The owner of an item, and the execution it owns. -/
def Item.key (i : Item) : Nat := i.owner.key

/-- The items of the system against its memory. -/
structure Ownership (m : Memory) (items : Multiset Item) : Prop where
  keys : (items.map Item.key).Nodup
  fits : ∀ i ∈ items, i.Ok (m.tasks i.key)
  owned : ∀ key, (m.tasks key).admitted = true → (m.tasks key).completion = none →
    (m.tasks key).dropped = false → key ∈ items.map Item.key
  executions : ∀ key, (m.tasks key).Ok
  ids : ∀ key, (m.tasks key).admitted = true →
    (m.tasks key).control.id = idOf key ∧ key < m.state.submissions
  permits : (m.state.active : Multiset (UInt64 × Nat)) ≤ heldPermits (items.map Item.owner)

/-- What a step can do to the items it reaches, with the memory. -/
inductive OwnershipChange (m : Memory) (items : Multiset Item) (m' : Memory)
    (items' : Multiset Item) : Prop
  | relocate :
      m'.state.active = m.state.active → m.state.submissions ≤ m'.state.submissions →
      (∀ key, Interference (m.tasks key) (m'.tasks key)) →
      Multiset.Rel (Item.Moves (m.state.accepting = false)) items items' →
      OwnershipChange m items m' items'
  | admission (runner : ExecutionBackend) (deadline : Option Nat) (permit : TaskPermit)
      (place : Place) :
      m'.tasks = Function.update m.tasks m.state.submissions
        (.fresh m.state.nextId runner deadline permit) →
      m'.state.submissions = m.state.submissions + 1 →
      items' = {⟨m.state.newOwner runner deadline permit, place⟩} + items →
      (permit = .active ∧ place = .ready ∧
          m'.state.active = m.state.active.insert m.state.nextId m.state.submissions ∨
        permit = .queued ∧ place = .waiting ∧ m'.state.active = m.state.active) →
      OwnershipChange m items m' items'
  | advance {owner : TaskOwner} {place place' : Place} {e' : Execution}
      {others : Multiset Item} :
      Advance owner (m.tasks owner.key) place e' place' →
      items = {⟨owner, place⟩} + others → items' = {⟨owner, place'⟩} + others →
      m' = { m with tasks := Function.update m.tasks owner.key e' } →
      OwnershipChange m items m' items'
  | promote {owner : TaskOwner} {others : Multiset Item} :
      items = {⟨owner, .waiting⟩} + others → items' = {⟨owner.promote, .ready⟩} + others →
      m'.tasks = Function.update m.tasks owner.key
        ((m.tasks owner.key).withControl (m.control owner.key).markAccepted) →
      m'.state.active = m.state.active.insert owner.id owner.key →
      m'.state.submissions = m.state.submissions →
      OwnershipChange m items m' items'
  | release {owner : TaskOwner} {result : Outcome} {others : Multiset Item} :
      items = {⟨owner, .closing (.release (some result))⟩} + others →
      items' = {⟨{ owner with permit := none }, .closing (.publish result)⟩} + others →
      m' = m.dropPermit owner →
      OwnershipChange m items m' items'
  | drop {owner : TaskOwner} :
      items = {⟨owner, .closing (.release none)⟩} + items' →
      m' = (m.dropPermit owner).modify owner.key (·.drop) →
      OwnershipChange m items m' items'
  | publish {owner : TaskOwner} {result : Outcome} :
      items = {⟨owner, .closing (.publish result)⟩} + items' →
      m' = m.modify owner.key (·.publish result) →
      OwnershipChange m items m' items'

section Preservation

variable {m m' : Memory} {items items' others : Multiset Item}

/-- Items that move keep their owners. -/
theorem map_owner_of_moves {closed : Prop} (h : Multiset.Rel (Item.Moves closed) items items') :
    items'.map Item.owner = items.map Item.owner := by
  induction h with
  | zero => rfl
  | cons hmove _ ih => rw [Multiset.map_cons, Multiset.map_cons, hmove.1, ih]

theorem map_key (items : Multiset Item) :
    items.map Item.key = (items.map Item.owner).map TaskOwner.key := by
  rw [Multiset.map_map]
  rfl

/-- Interference everywhere, and items that only move. -/
theorem Ownership.relocate (inv : Ownership m items) {closed : Prop}
    (active : m'.state.active = m.state.active)
    (submissions : m.state.submissions ≤ m'.state.submissions)
    (interference : ∀ key, Interference (m.tasks key) (m'.tasks key))
    (moves : Multiset.Rel (Item.Moves closed) items items') : Ownership m' items' := by
  have howners := map_owner_of_moves moves
  have hkeys : items'.map Item.key = items.map Item.key := by
    rw [map_key, map_key, howners]
  refine ⟨?_, fun i hi => ?_, fun key ha hc hd => ?_, fun key => ?_, fun key ha => ?_, ?_⟩
  · rw [hkeys]
    exact inv.keys
  · obtain ⟨i₀, hi₀, howner, hplace⟩ := Multiset.exists_mem_of_rel_of_mem
      (Multiset.rel_flip.mpr moves) hi
    have hkey : i.key = i₀.key := congrArg TaskOwner.key howner
    have hok := interference_item (interference i₀.key) (inv.executions _) (inv.fits i₀ hi₀)
    rw [hkey]
    exact ⟨hok.admitted, hok.unset, hok.kept, by rw [howner, hok.id], by rw [howner, hok.runner],
      by rw [howner]; exact hplace.ok hok.place⟩
  · obtain ⟨hadmitted, hcompletion, hdropped, -⟩ := interference_fixed (interference key)
    rw [hkeys]
    exact inv.owned key (hadmitted ▸ ha) (hcompletion ▸ hc) (hdropped ▸ hd)
  · exact interference_ok (interference key) (inv.executions key)
  · obtain ⟨hadmitted, -, -, hid⟩ := interference_fixed (interference key)
    obtain ⟨hids, hlt⟩ := inv.ids key (hadmitted ▸ ha)
    exact ⟨by rw [hid, hids], Nat.lt_of_lt_of_le hlt submissions⟩
  · rw [active, howners]
    exact inv.permits

/-- The keys of the other items differ from the one item's. -/
theorem Ownership.key_ne {i : Item} (inv : Ownership m ({i} + others)) {j : Item}
    (hj : j ∈ others) : j.key ≠ i.key := by
  have hnodup := inv.keys
  rw [Multiset.map_add, Multiset.map_singleton, Multiset.singleton_add,
    Multiset.nodup_cons] at hnodup
  intro heq
  exact hnodup.1 (heq ▸ Multiset.mem_map_of_mem Item.key hj)

/-- One item is replaced, together with its execution. -/
theorem Ownership.replace {i i' : Item} (inv : Ownership m ({i} + others)) (e' : Execution)
    (key : i'.key = i.key) (tasks : m'.tasks = Function.update m.tasks i.key e')
    (execution : e'.Ok) (fits : i'.Ok e') (id : e'.control.id = (m.tasks i.key).control.id)
    (submissions : m'.state.submissions = m.state.submissions)
    (permits : (m'.state.active : Multiset (UInt64 × Nat)) ≤
      heldPermits (({i'} + others).map Item.owner)) :
    Ownership m' ({i'} + others) := by
  have hsame : ∀ {k : Nat}, k ≠ i.key → m'.tasks k = m.tasks k := fun hk => by
    rw [tasks, Function.update_of_ne hk]
  have hthis : m'.tasks i.key = e' := by rw [tasks, Function.update_self]
  have hkeys : ({i'} + others).map Item.key = ({i} + others).map Item.key := by
    rw [Multiset.map_add, Multiset.map_add, Multiset.map_singleton, Multiset.map_singleton, key]
  have hi : i ∈ {i} + others := by simp
  refine ⟨?_, fun j hj => ?_, fun k ha hc hd => ?_, fun k => ?_, fun k ha => ?_, permits⟩
  · rw [hkeys]
    exact inv.keys
  · rcases Multiset.mem_add.mp hj with h | h
    · obtain rfl := Multiset.mem_singleton.mp h
      rw [key, hthis]
      exact fits
    · rw [hsame (inv.key_ne h)]
      exact inv.fits j (Multiset.mem_add.mpr (.inr h))
  · rw [hkeys]
    by_cases hk : k = i.key
    · rw [hk]
      exact Multiset.mem_map_of_mem Item.key hi
    · rw [hsame hk] at ha hc hd
      exact inv.owned k ha hc hd
  · by_cases hk : k = i.key
    · rw [hk, hthis]
      exact execution
    · rw [hsame hk]
      exact inv.executions k
  · rw [submissions]
    by_cases hk : k = i.key
    · rw [hk, hthis, id]
      exact inv.ids i.key (inv.fits i hi).admitted
    · rw [hsame hk] at ha ⊢
      exact inv.ids k ha

/-- One item leaves, its execution being published or dropped. -/
theorem Ownership.remove {i : Item} (inv : Ownership m ({i} + others)) (e' : Execution)
    (tasks : m'.tasks = Function.update m.tasks i.key e') (execution : e'.Ok)
    (gone : e'.completion ≠ none ∨ e'.dropped = true)
    (id : e'.control.id = (m.tasks i.key).control.id)
    (submissions : m'.state.submissions = m.state.submissions)
    (permits : (m'.state.active : Multiset (UInt64 × Nat)) ≤
      heldPermits (others.map Item.owner)) :
    Ownership m' others := by
  have hsame : ∀ {k : Nat}, k ≠ i.key → m'.tasks k = m.tasks k := fun hk => by
    rw [tasks, Function.update_of_ne hk]
  have hthis : m'.tasks i.key = e' := by rw [tasks, Function.update_self]
  have hnodup := inv.keys
  rw [Multiset.map_add, Multiset.map_singleton, Multiset.singleton_add,
    Multiset.nodup_cons] at hnodup
  refine ⟨hnodup.2, fun j hj => ?_, fun k ha hc hd => ?_, fun k => ?_, fun k ha => ?_, permits⟩
  · rw [hsame (inv.key_ne hj)]
    exact inv.fits j (Multiset.mem_add.mpr (.inr hj))
  · by_cases hk : k = i.key
    · rw [hk, hthis] at hc hd
      rcases gone with h | h
      · exact absurd hc h
      · rw [h] at hd
        cases hd
    · rw [hsame hk] at ha hc hd
      have hmem := inv.owned k ha hc hd
      rw [Multiset.map_add, Multiset.map_singleton, Multiset.singleton_add,
        Multiset.mem_cons] at hmem
      exact hmem.resolve_left hk
  · by_cases hk : k = i.key
    · rw [hk, hthis]
      exact execution
    · rw [hsame hk]
      exact inv.executions k
  · rw [submissions]
    by_cases hk : k = i.key
    · rw [hk, hthis, id]
      exact inv.ids i.key (inv.fits i (by simp)).admitted
    · rw [hsame hk] at ha ⊢
      exact inv.ids k ha

/-! ### Permits -/

theorem remove_le (active : ActiveMap) (id : UInt64) :
    (active.remove id : Multiset (UInt64 × Nat)) ≤ active :=
  Multiset.coe_le.mpr List.filter_sublist.subperm

/-- A new entry with its permit. -/
theorem insert_le {active : ActiveMap} {held : Multiset (UInt64 × Nat)}
    (h : (active : Multiset (UInt64 × Nat)) ≤ held) (id : UInt64) (key : Nat) :
    (active.insert id key : Multiset (UInt64 × Nat)) ≤ {(id, key)} + held := by
  rw [ActiveMap.insert, ← Multiset.cons_coe, Multiset.singleton_add]
  exact Multiset.cons_le_cons _ ((remove_le active id).trans h)

/-- Without one entry's permit, an entry of its identifier may not stay. -/
theorem remove_le_of_cons {active : ActiveMap} {held : Multiset (UInt64 × Nat)} {id : UInt64}
    {key : Nat} (h : (active : Multiset (UInt64 × Nat)) ≤ {(id, key)} + held) :
    (active.remove id : Multiset (UInt64 × Nat)) ≤ held := by
  have hfilter := Multiset.filter_le_filter (fun entry => entry.1 ≠ id) h
  rw [Multiset.filter_add, Multiset.filter_singleton, if_neg (by simp), Multiset.empty_eq_zero,
    zero_add] at hfilter
  exact hfilter.trans (Multiset.filter_le _ _)

/-- Dropping an owner's permit, in the active map. -/
theorem dropPermit_permits {owner : TaskOwner} {held : Multiset TaskOwner}
    (h : (m.state.active : Multiset (UInt64 × Nat)) ≤ heldPermits ({owner} + held)) :
    ((m.dropPermit owner).state.active : Multiset (UInt64 × Nat)) ≤ heldPermits held := by
  rw [heldPermits_add] at h
  unfold Memory.dropPermit
  split
  · next hactive =>
    rw [heldPermits_active hactive] at h
    exact remove_le_of_cons h
  · next hother =>
    rw [heldPermits_other hother, zero_add] at h
    exact h

@[simp] theorem dropPermit_tasks (m : Memory) (owner : TaskOwner) :
    (m.dropPermit owner).tasks = m.tasks := by
  unfold Memory.dropPermit
  split <;> rfl

@[simp] theorem dropPermit_submissions (m : Memory) (owner : TaskOwner) :
    (m.dropPermit owner).state.submissions = m.state.submissions := by
  unfold Memory.dropPermit
  split <;> rfl

/-! ### The invariant of a step -/

theorem Execution.fresh_ok (id : UInt64) (backend : ExecutionBackend) (deadline : Option Nat)
    (permit : TaskPermit) : (Execution.fresh id backend deadline permit).Ok := by
  have hlifecycle : (Execution.fresh id backend deadline permit).control.lifecycle = .queued ∨
      (Execution.fresh id backend deadline permit).control.lifecycle = .acceptedNotStarted := by
    cases permit with
    | active => exact .inr rfl
    | queued => exact .inl rfl
  refine ⟨?_, fun hs => ?_, by simp [fresh, absent], rfl, by simp [fresh, absent],
    by simp [fresh, absent], by simp [fresh]⟩
  · cases permit with
    | active => exact (markAccepted_change _).coherent (.new id backend deadline)
    | queued => exact .new id backend deadline
  · rw [hs] at hlifecycle
    rcases hlifecycle with h | h <;> cases h

theorem markAccepted_started {c : TaskControl} (h : c.markAccepted.lifecycle = .started) :
    c.lifecycle = .started := by
  unfold TaskControl.markAccepted at h
  split at h
  · cases h
  · exact h

theorem markAccepted_isTerminal (c : TaskControl) :
    c.markAccepted.lifecycle.isTerminal = c.lifecycle.isTerminal := by
  unfold TaskControl.markAccepted
  split
  · next h => rw [h]; rfl
  · rfl

/-- A promoted owner fits its place in `ready`. -/
theorem Item.Ok.promote {e : Execution} {owner : TaskOwner} (ok : e.Ok)
    (item : Item.Ok e ⟨owner, .waiting⟩) :
    (e.withControl e.control.markAccepted).Ok ∧
      Item.Ok (e.withControl e.control.markAccepted) ⟨owner.promote, .ready⟩ := by
  obtain ⟨-, hopen, hunstarted⟩ := item.place
  have hchange := markAccepted_change e.control
  obtain ⟨hid, hbackend, -⟩ := hchange.fixed
  refine ⟨ok.withControl hchange item.admitted item.unset item.kept hopen.2,
    item.admitted, item.unset, item.kept, item.id.trans hid.symm, item.runner.trans hbackend.symm,
    rfl, ⟨(markAccepted_isTerminal e.control).trans hopen.1, hopen.2⟩, ?_, hunstarted.2⟩
  have hnot : e.control.markAccepted.lifecycle ≠ .started := fun h => by
    have := ok.entered (markAccepted_started h)
    rw [hunstarted.1] at this
    cases this
  simp [Execution.withControl, hunstarted.1, hnot]

/-- A new execution with its owner. -/
theorem Ownership.admission (inv : Ownership m items)
    (nextId : m.state.nextId = idOf m.state.submissions) (runner : ExecutionBackend)
    (deadline : Option Nat) (permit : TaskPermit) {place : Place}
    (tasks : m'.tasks = Function.update m.tasks m.state.submissions
      (.fresh m.state.nextId runner deadline permit))
    (submissions : m'.state.submissions = m.state.submissions + 1)
    (fits : PlaceOk (.fresh m.state.nextId runner deadline permit)
      (m.state.newOwner runner deadline permit) place)
    (permits : (m'.state.active : Multiset (UInt64 × Nat)) ≤
      heldPermits {m.state.newOwner runner deadline permit} +
        heldPermits (items.map Item.owner)) :
    Ownership m' ({⟨m.state.newOwner runner deadline permit, place⟩} + items) := by
  have hlt : ∀ i ∈ items, i.key < m.state.submissions := fun i hi =>
    (inv.ids i.key (inv.fits i hi).admitted).2
  have hsame : ∀ {k : Nat}, k ≠ m.state.submissions → m'.tasks k = m.tasks k := fun hk => by
    rw [tasks, Function.update_of_ne hk]
  have hthis : m'.tasks m.state.submissions =
      .fresh m.state.nextId runner deadline permit := by rw [tasks, Function.update_self]
  have hid : (Execution.fresh m.state.nextId runner deadline permit).control.id =
      m.state.nextId := by cases permit <;> rfl
  have hbackend : (Execution.fresh m.state.nextId runner deadline permit).control.backend =
      runner := by cases permit <;> rfl
  refine ⟨?_, fun i hi => ?_, fun k ha hc hd => ?_, fun k => ?_, fun k ha => ?_, ?_⟩
  · rw [Multiset.map_add, Multiset.map_singleton, Multiset.singleton_add, Multiset.nodup_cons]
    refine ⟨fun hmem => ?_, inv.keys⟩
    obtain ⟨i, hi, hkey⟩ := Multiset.mem_map.mp hmem
    have hkey' : i.key = m.state.submissions := hkey
    have := hlt i hi
    omega
  · rcases Multiset.mem_add.mp hi with h | h
    · obtain rfl := Multiset.mem_singleton.mp h
      change Item.Ok (m'.tasks m.state.submissions) _
      rw [hthis]
      exact ⟨rfl, rfl, rfl, hid.symm, hbackend.symm, fits⟩
    · rw [hsame (Nat.ne_of_lt (hlt i h))]
      exact inv.fits i h
  · rw [Multiset.map_add, Multiset.map_singleton, Multiset.singleton_add, Multiset.mem_cons]
    by_cases hk : k = m.state.submissions
    · exact .inl hk
    · rw [hsame hk] at ha hc hd
      exact .inr (inv.owned k ha hc hd)
  · by_cases hk : k = m.state.submissions
    · rw [hk, hthis]
      exact Execution.fresh_ok _ _ _ _
    · rw [hsame hk]
      exact inv.executions k
  · rw [submissions]
    by_cases hk : k = m.state.submissions
    · rw [hk, hthis, hid]
      exact ⟨nextId, Nat.lt_succ_self _⟩
    · rw [hsame hk] at ha ⊢
      obtain ⟨hids, hk'⟩ := inv.ids k ha
      exact ⟨hids, Nat.lt_succ_of_lt hk'⟩
  · rw [Multiset.map_add, Multiset.map_singleton, heldPermits_add]
    exact permits

theorem OwnershipChange.preserves (change : OwnershipChange m items m' items')
    (nextId : m.state.nextId = idOf m.state.submissions)
    (inv : Ownership m (items + others)) : Ownership m' (items' + others) := by
  cases change with
  -- Items of the state and of threads change places, and nothing is written to an execution.
  | relocate hactive hsubmissions hinterference hmoves =>
      refine inv.relocate hactive hsubmissions hinterference (hmoves.add ?_)
      exact Multiset.rel_refl_of_refl_on fun i _ => ⟨rfl, .stay⟩
  | admission runner deadline permit place htasks hsubmissions hitems hpermit =>
      subst hitems
      rw [add_assoc]
      refine inv.admission nextId runner deadline permit htasks hsubmissions ?_ ?_
      -- Admitted with an active permit, or to the queue with a queued one.
      · rcases hpermit with ⟨rfl, rfl, -⟩ | ⟨rfl, rfl, -⟩
        · exact ⟨rfl, ⟨rfl, rfl⟩, rfl, rfl⟩
        · exact ⟨rfl, ⟨rfl, rfl⟩, rfl, rfl⟩
      · rcases hpermit with ⟨rfl, -, hactive⟩ | ⟨rfl, -, hactive⟩
        · rw [hactive, heldPermits_active rfl]
          exact insert_le inv.permits _ _
        · rw [hactive, heldPermits_other (by simp [SchedulerState.newOwner]), zero_add]
          exact inv.permits
  | @advance owner place place' e' rest hadvance hitems hitems' hm =>
      subst hitems hitems' hm
      rw [add_assoc] at inv ⊢
      have hitem : Item.Ok (m.tasks owner.key) ⟨owner, place⟩ :=
        inv.fits ⟨owner, place⟩ (by simp)
      obtain ⟨hok, hfits⟩ := hadvance.ok (inv.executions _) hitem
      have hid := (hadvance.control hitem.place).fixed.1
      refine inv.replace e' rfl rfl hok hfits hid rfl ?_
      have hpermits := inv.permits
      rw [Multiset.map_add, Multiset.map_singleton] at hpermits ⊢
      exact hpermits
  | @promote owner rest hitems hitems' htasks hactive hsubmissions =>
      subst hitems hitems'
      rw [add_assoc] at inv ⊢
      have hitem : Item.Ok (m.tasks owner.key) ⟨owner, .waiting⟩ :=
        inv.fits ⟨owner, .waiting⟩ (by simp)
      obtain ⟨hok, hfits⟩ := hitem.promote (inv.executions _)
      have hid := (markAccepted_change (m.tasks owner.key).control).fixed.1
      refine inv.replace _ rfl htasks hok hfits hid hsubmissions ?_
      -- A queued permit is not in the active map, so the promotion inserts it anew.
      have hqueued : owner.permit = some .queued := hitem.place.1
      have hpermits := inv.permits
      rw [Multiset.map_add, Multiset.map_singleton, heldPermits_add,
        heldPermits_other (by simp [hqueued]), zero_add] at hpermits
      rw [hactive, Multiset.map_add, Multiset.map_singleton, heldPermits_add,
        heldPermits_active rfl]
      exact insert_le hpermits _ _
  | @release owner result rest hitems hitems' hm =>
      subst hitems hitems' hm
      rw [add_assoc] at inv ⊢
      have hitem : Item.Ok (m.tasks owner.key) ⟨owner, .closing (.release (some result))⟩ :=
        inv.fits ⟨owner, .closing (.release (some result))⟩ (by simp)
      refine inv.replace (m.tasks owner.key) rfl ?_ (inv.executions _) ?_ rfl
        (dropPermit_submissions m owner) ?_
      · rw [dropPermit_tasks]
        exact (Function.update_eq_self _ _).symm
      · exact ⟨hitem.admitted, hitem.unset, hitem.kept, hitem.id, hitem.runner,
          rfl, hitem.place.2⟩
      · have hpermits := inv.permits
        rw [Multiset.map_add, Multiset.map_singleton] at hpermits ⊢
        rw [heldPermits_add, heldPermits_other (by simp), zero_add]
        exact dropPermit_permits hpermits
  | @drop owner hitems hm =>
      subst hitems hm
      rw [add_assoc] at inv
      have hitem : Item.Ok (m.tasks owner.key) ⟨owner, .closing (.release none)⟩ :=
        inv.fits ⟨owner, .closing (.release none)⟩ (by simp)
      have hok := inv.executions owner.key
      refine inv.remove (m.tasks owner.key).drop ?_ ?_ (.inr rfl) rfl
        (dropPermit_submissions m owner) ?_
      · simp only [Memory.modify, dropPermit_tasks]
        rfl
      · exact ⟨hok.coherent, hok.entered, hok.result, hok.published, hok.resolved,
          fun _ => hitem.place.2.1, hok.absent⟩
      · have hpermits := inv.permits
        rw [Multiset.map_add, Multiset.map_singleton] at hpermits
        exact dropPermit_permits hpermits
  | @publish owner result hitems hm =>
      subst hitems hm
      rw [add_assoc] at inv
      have hitem : Item.Ok (m.tasks owner.key) ⟨owner, .closing (.publish result)⟩ :=
        inv.fits ⟨owner, .closing (.publish result)⟩ (by simp)
      have hok := inv.executions owner.key
      -- Nothing was published before, so what is published now stays.
      have hcompletion : ((m.tasks owner.key).publish result).completion = some result := by
        simp only [Execution.publish, hitem.unset, Option.getD_none]
      have hpublished := hok.published
      rw [hitem.unset] at hpublished
      refine inv.remove ((m.tasks owner.key).publish result) rfl ?_ (.inl (by simp [hcompletion]))
        rfl rfl ?_
      · refine ⟨hok.coherent, hok.entered, fun result' hr => ?_, ?_, hok.resolved, hok.dropped,
          fun ha => ?_⟩
        · obtain rfl : result = result' := Option.some.inj (hcompletion.symm.trans hr)
          exact hitem.place.2
        · rw [hcompletion]
          show (m.tasks owner.key).published + 1 = 1
          rw [hpublished]
          rfl
        · have hadmitted : (m.tasks owner.key).admitted = false := ha
          rw [hitem.admitted] at hadmitted
          cases hadmitted
      · have hpermits := inv.permits
        have hnone : owner.permit = none := hitem.place.1
        rw [Multiset.map_add, Multiset.map_singleton, heldPermits_add,
          heldPermits_other (by simp [hnone]), zero_add] at hpermits
        exact hpermits

end Preservation

end Libdeno.Executor
