import Libdeno.Library.Transition
import Libdeno.Runs.Workers

/-!
# Libdeno.Runs.WorkerRegistry

Any number of `WorkerLifecycleRegistry`s of `worker_lifecycle.rs` and the calls on them. A
section under a registry's lock is one step, as are the allocation of a registration id
before the lock is taken, every `request_stop` after it was given back, and the look at the
published count in `close_and_wait`.

A record holds one control, the last that was attached to it, and registration ids are 64
bits wide and start again after 2^64 of them. Within these limits (`worker_registry`): the
counts agree, a closed registry takes no worker and stops those it has, and a registration
that was replaced removes nothing.
-/

namespace Libdeno.Runs

/-! ### One registry -/

/-- `Inner`, with the controls of the records apart, and for each record which registration
it is (history). -/
structure Registry where
  state : RegistryState
  controls : UInt32 → Option Nat
  serials : UInt32 → Nat
  count : Nat

namespace Registry

def new : Registry :=
  { state := .new, controls := fun _ => none, serials := fun _ => 0, count := 0 }

/-- The section of `reserve`. -/
def reserve (self : Registry) (workerId : UInt32) (record : Record) (serial : Nat) :
    Option Nat × Registry :=
  match self.state.reserve workerId record with
  | (none, _) => (none, self)
  | (some added, state) =>
      (some added,
        { state
          controls := Function.update self.controls workerId none
          serials := Function.update self.serials workerId serial
          count := state.len })

/-- The section of `attach`, with whether the control is to be stopped at once. -/
def attach (self : Registry) (workerId : UInt32) (registrationId : UInt64) (control : Nat) :
    Bool × Registry :=
  if self.state.registered workerId registrationId then
    (self.state.closing,
      { self with controls := Function.update self.controls workerId (some control) })
  else
    (false, self)

/-- The section of `close`, without the controls it collects. -/
def close (self : Registry) : Registry := { self with state := self.state.close }

/-- The section of `unregister`. -/
def unregister (self : Registry) (workerId : UInt32) (registrationId : UInt64) :
    Nat × Registry :=
  if self.state.registered workerId registrationId then
    let state := (self.state.unregister workerId registrationId).2
    ((self.state.unregister workerId registrationId).1,
      { self with
        state
        controls := Function.update self.controls workerId none
        count := state.len })
  else
    (0, self)

/-- The control of a record, with the record's parent. -/
def OnRecord (self : Registry) (parentId : UInt32) (control : Nat) : Prop :=
  ∃ workerId record, self.state.workers.lookup workerId = some record ∧
    record.parentId = parentId ∧ self.controls workerId = some control

/-- What `reserve` does. -/
theorem reserve_some {self r : Registry} {workerId : UInt32} {record : Record}
    {serial added : Nat} (h : self.reserve workerId record serial = (some added, r)) :
    self.state.closing = false ∧
    r.state = { self.state with workers := self.state.workers.insert workerId record } ∧
    r.controls = Function.update self.controls workerId none ∧
    r.serials = Function.update self.serials workerId serial ∧
    r.count = r.state.len ∧ r.state.len = self.state.len + added := by
  rw [reserve] at h
  split at h
  · cases h
  · rename_i state hstate
    obtain ⟨hadded, rfl⟩ := Prod.mk.inj h
    obtain rfl := Option.some.inj hadded
    have hlen := RegistryState.len_reserve hstate
    rw [RegistryState.reserve] at hstate
    split at hstate
    · cases hstate
    · rename_i hclosing
      exact ⟨by simpa using hclosing, (congrArg Prod.snd hstate).symm, rfl, rfl, rfl, hlen⟩

/-- What `attach` does to a record that is current. -/
theorem attach_cases {self r : Registry} {workerId : UInt32} {registrationId : UInt64}
    {control : Nat} {stops : Bool}
    (h : self.attach workerId registrationId control = (stops, r)) :
    (self.state.registered workerId registrationId = true ∧ stops = self.state.closing ∧
      r = { self with
        controls := Function.update self.controls workerId (some control) }) ∨
    (stops = false ∧ r = self) := by
  rw [attach] at h
  split at h
  · rename_i hregistered
    exact .inl ⟨hregistered, (congrArg Prod.fst h).symm, (congrArg Prod.snd h).symm⟩
  · exact .inr ⟨(congrArg Prod.fst h).symm, (congrArg Prod.snd h).symm⟩

/-- What `unregister` does: nothing, or it takes the record away. -/
theorem unregister_cases {self r : Registry} {workerId : UInt32} {registrationId : UInt64}
    {removed : Nat} (h : self.unregister workerId registrationId = (removed, r)) :
    (self.state.registered workerId registrationId = true ∧
      r.state = { self.state with workers := self.state.workers.erase workerId } ∧
      r.controls = Function.update self.controls workerId none ∧ r.serials = self.serials ∧
      r.count = r.state.len ∧ r.state.len + removed = self.state.len) ∨
    (self.state.registered workerId registrationId = false ∧ removed = 0 ∧ r = self) := by
  rw [unregister] at h
  split at h
  · rename_i hregistered
    obtain ⟨rfl, rfl⟩ := Prod.mk.inj h
    left
    have hlen := RegistryState.len_unregister
      (Prod.mk.eta (p := self.state.unregister workerId registrationId)).symm
    have hstate : (self.state.unregister workerId registrationId).2 =
        { self.state with workers := self.state.workers.erase workerId } := by
      rw [RegistryState.unregister, if_pos hregistered]
    exact ⟨hregistered, hstate, rfl, rfl, rfl, hlen⟩
  · rename_i hregistered
    obtain ⟨rfl, rfl⟩ := Prod.mk.inj h
    exact .inr ⟨by simpa using hregistered, rfl, rfl⟩

/-- What `attach` puts on a current record is on record. -/
theorem onRecord_attach {self : Registry} {workerId : UInt32} {registrationId : UInt64}
    (control : Nat) (h : self.state.registered workerId registrationId = true) :
    ∃ parentId, (self.attach workerId registrationId control).2.OnRecord parentId control := by
  rw [attach, if_pos h]
  rw [RegistryState.registered, Option.any_eq_true] at h
  obtain ⟨record, hfound, -⟩ := h
  exact ⟨record.parentId, workerId, record, hfound, rfl, Function.update_self ..⟩

theorem onRecord_unregister {self r : Registry} {workerId : UInt32} {registrationId : UInt64}
    {removed : Nat} (h : self.unregister workerId registrationId = (removed, r))
    {parentId : UInt32} {control : Nat} (on : r.OnRecord parentId control) :
    self.OnRecord parentId control := by
  rcases unregister_cases h with ⟨-, hstate, hcontrols, -, -, -⟩ | ⟨-, -, rfl⟩
  · obtain ⟨id, found, hfound, hparent, hcontrol⟩ := on
    have hne : id ≠ workerId := by
      rintro rfl
      rw [hcontrols, Function.update_self] at hcontrol
      cases hcontrol
    rw [hstate, Finmap.lookup_erase_ne hne] at hfound
    rw [hcontrols, Function.update_of_ne hne] at hcontrol
    exact ⟨id, found, hfound, hparent, hcontrol⟩
  · exact on

end Registry

/-! ### Calls in progress -/

/-- The registration id that is allocated after `serial` others. -/
def registrationIdOf (serial : Nat) : UInt64 := UInt64.ofNat (serial + 1)

/-- `WorkerRegistration`, with its serial number (history). -/
structure Registration where
  registry : Nat
  workerId : UInt32
  registrationId : UInt64
  serial : Nat
  deriving DecidableEq

/-- A call between two steps. -/
inductive Call where
  /-- `reserve` has its registration id. -/
  | reserving (registration : Registration) (parentId : UInt32)
  /-- `close` or `attach` has these controls to stop; `close_and_wait` then waits for the
  registry to be empty. -/
  | stopping (controls : List (UInt32 × Nat)) (waits : Option Nat)

/-- The registries, what they share, the calls in progress and the registrations that are
alive; and as history how many registration ids were allocated, the controls that were
stopped and the registries for which `close_and_wait` returned true. -/
structure Registries where
  registries : List Registry
  activeWorkers : Nat
  nextRegistrationId : UInt64
  allocated : Nat
  calls : List Call
  registrations : List Registration
  stopped : List Nat
  drained : List Nat

def Registries.start : Registries :=
  { registries := [], activeWorkers := 0, nextRegistrationId := 1, allocated := 0, calls := [],
    registrations := [], stopped := [], drained := [] }

namespace Registries

/-- Put a registry back. -/
def setRegistry (s : Registries) (i : Nat) (r : Registry) : Registries :=
  { s with registries := s.registries.set i r }

inductive Step : Registries → Registries → Prop
  | newRegistry (s : Registries) :
      Step s { s with registries := s.registries ++ [Registry.new] }
  /-- `reserve`: `REGISTRATION_ID.fetch_add(1)`. -/
  | allocate (s : Registries) (i : Nat) (workerId parentId : UInt32) :
      Step s { s with
        nextRegistrationId := s.nextRegistrationId + 1
        allocated := s.allocated + 1
        calls := .reserving ⟨i, workerId, s.nextRegistrationId, s.allocated⟩ parentId ::
          s.calls }
  | reserved (s : Registries) (before after : List Call) (x : Registration) (parentId : UInt32)
      (r r' : Registry) (added : Nat)
      (calls : s.calls = before ++ .reserving x parentId :: after)
      (current : s.registries[x.registry]? = some r)
      (result : r.reserve x.workerId ⟨x.registrationId, parentId⟩ x.serial =
        (some added, r')) :
      Step s { s.setRegistry x.registry r' with
        activeWorkers := s.activeWorkers + added
        calls := before ++ after
        registrations := x :: s.registrations }
  | refused (s : Registries) (before after : List Call) (x : Registration) (parentId : UInt32)
      (r r' : Registry) (calls : s.calls = before ++ .reserving x parentId :: after)
      (current : s.registries[x.registry]? = some r)
      (result : r.reserve x.workerId ⟨x.registrationId, parentId⟩ x.serial = (none, r')) :
      Step s { s with calls := before ++ after }
  | attach (s : Registries) (i : Nat) (workerId : UInt32) (registrationId : UInt64)
      (control : Nat) (r r' : Registry) (stops : Bool)
      (current : s.registries[i]? = some r)
      (result : r.attach workerId registrationId control = (stops, r')) :
      Step s { s.setRegistry i r' with
        calls := if stops then .stopping [(0, control)] none :: s.calls else s.calls }
  /-- `close`, or the beginning of `close_and_wait`: the controls on record, by parent. -/
  | close (s : Registries) (i : Nat) (r : Registry) (controls : List (UInt32 × Nat)) (waits : Bool)
      (current : s.registries[i]? = some r)
      (collected : ∀ parentId control,
        (parentId, control) ∈ controls ↔ r.OnRecord parentId control)
      (sorted : controls.Pairwise fun a b => a.1 ≤ b.1) :
      Step s { s.setRegistry i r.close with
        calls := .stopping controls (if waits then some i else none) :: s.calls }
  /-- `request_stop` -/
  | stop (s : Registries) (before after : List Call) (parentId : UInt32) (control : Nat)
      (controls : List (UInt32 × Nat)) (waits : Option Nat)
      (calls : s.calls = before ++ .stopping ((parentId, control) :: controls) waits :: after) :
      Step s { s with
        calls := before ++ .stopping controls waits :: after
        stopped := control :: s.stopped }
  /-- The call returns, or the future that waits is dropped. -/
  | finish (s : Registries) (before after : List Call) (waits : Option Nat)
      (calls : s.calls = before ++ .stopping [] waits :: after) :
      Step s { s with calls := before ++ after }
  /-- `close_and_wait` sees that the count is zero. -/
  | drained (s : Registries) (before after : List Call) (i : Nat) (r : Registry)
      (calls : s.calls = before ++ .stopping [] (some i) :: after)
      (current : s.registries[i]? = some r) (zero : r.count = 0) :
      Step s { s with calls := before ++ after, drained := i :: s.drained }
  /-- A registration is dropped: `unregister`. -/
  | drop (s : Registries) (before after : List Registration) (x : Registration) (r r' : Registry)
      (removed : Nat) (alive : s.registrations = before ++ x :: after)
      (current : s.registries[x.registry]? = some r)
      (result : r.unregister x.workerId x.registrationId = (removed, r')) :
      Step s { s.setRegistry x.registry r' with
        activeWorkers := s.activeWorkers - removed
        registrations := before ++ after }

/-- The states some calls can lead to. -/
abbrev Reachable (s : Registries) : Prop := Transition.Reachable (· = start) Step s

/-! ### The counts -/

/-- The workers of all registries. -/
def workers (s : Registries) : Nat := (s.registries.map fun r => r.state.len).sum

theorem sum_map_set {α : Type} (f : α → Nat) {xs : List α} {i : Nat} {x y : α}
    (h : xs[i]? = some x) : ((xs.set i y).map f).sum + f x = (xs.map f).sum + f y := by
  induction xs generalizing i with
  | nil => cases h
  | cons z xs ih =>
      cases i with
      | zero =>
          obtain rfl := Option.some.inj h
          rw [List.set_cons_zero, List.map_cons, List.map_cons, List.sum_cons, List.sum_cons]
          omega
      | succ i =>
          rw [List.getElem?_cons_succ] at h
          have := ih h
          rw [List.set_cons_succ, List.map_cons, List.map_cons, List.sum_cons, List.sum_cons]
          omega

/-- `ACTIVE_WORKERS` and the published counts. -/
structure Counted (s : Registries) : Prop where
  active : s.activeWorkers = s.workers
  published : ∀ r ∈ s.registries, r.count = r.state.len

theorem workers_setRegistry {s : Registries} {i : Nat} {r : Registry} (r' : Registry)
    (current : s.registries[i]? = some r) :
    (s.setRegistry i r').workers + r.state.len = s.workers + r'.state.len :=
  sum_map_set (fun r => r.state.len) current

/-- Every registry after one of them was put back. -/
theorem forall_setRegistry {P : Registry → Prop} {s : Registries} {i : Nat} {r' : Registry}
    (h : ∀ r ∈ s.registries, P r) (h' : P r') : ∀ r ∈ (s.setRegistry i r').registries, P r := by
  intro r mem
  rcases List.mem_or_eq_of_mem_set mem with mem | rfl
  · exact h r mem
  · exact h'

theorem Counted.step {s s' : Registries} (h : Counted s) (step : Step s s') : Counted s' := by
  cases step with
  | newRegistry =>
      constructor
      · show s.activeWorkers = ((s.registries ++ [Registry.new]).map fun r => r.state.len).sum
        rw [List.map_append, List.sum_append, h.active]
        rfl
      · intro r mem
        rcases List.mem_append.mp mem with mem | mem
        · exact h.published r mem
        · rw [List.mem_singleton.mp mem]
          rfl
  | allocate i workerId parentId => exact ⟨h.active, h.published⟩
  | reserved before after x parentId r r' added calls current result =>
      obtain ⟨-, -, -, -, hcount, hlen⟩ := Registry.reserve_some result
      -- What the registry gains, the global count gains.
      have hworkers := workers_setRegistry r' current
      refine ⟨?_, forall_setRegistry h.published hcount⟩
      show s.activeWorkers + added = (s.setRegistry x.registry r').workers
      rw [h.active]
      omega
  | refused before after x parentId r r' calls current result => exact ⟨h.active, h.published⟩
  | attach i workerId registrationId control r r' stops current result =>
      have hsame : r'.state = r.state ∧ r'.count = r.count := by
        rcases Registry.attach_cases result with ⟨-, -, rfl⟩ | ⟨-, rfl⟩ <;> exact ⟨rfl, rfl⟩
      have hworkers := workers_setRegistry r' current
      have hold := h.published r (List.mem_of_getElem? current)
      refine ⟨?_, forall_setRegistry h.published (by rw [hsame.1, hsame.2, hold])⟩
      show s.activeWorkers = (s.setRegistry i r').workers
      rw [hsame.1] at hworkers
      rw [h.active]
      omega
  | close i r controls waits current collected sorted =>
      have hworkers := workers_setRegistry r.close current
      have hlen : r.close.state.len = r.state.len := RegistryState.len_close r.state
      have hold := h.published r (List.mem_of_getElem? current)
      refine ⟨?_, forall_setRegistry h.published (hold.trans hlen.symm)⟩
      show s.activeWorkers = (s.setRegistry i r.close).workers
      rw [h.active]
      omega
  | stop before after parentId control controls waits calls => exact ⟨h.active, h.published⟩
  | finish before after waits calls => exact ⟨h.active, h.published⟩
  | drained before after i r calls current zero => exact ⟨h.active, h.published⟩
  | drop before after x r r' removed alive current result =>
      have hworkers := workers_setRegistry r' current
      have hold := h.published r (List.mem_of_getElem? current)
      have hsame : r'.count = r'.state.len ∧ r'.state.len + removed = r.state.len := by
        rcases Registry.unregister_cases result with ⟨-, -, -, -, hcount, hlen⟩ | ⟨-, rfl, rfl⟩
        · exact ⟨hcount, hlen⟩
        · exact ⟨hold, rfl⟩
      refine ⟨?_, forall_setRegistry h.published hsame.1⟩
      show s.activeWorkers - removed = (s.setRegistry x.registry r').workers
      rw [h.active]
      omega

theorem counted {s : Registries} (h : Reachable s) : Counted s := by
  refine Transition.Reachable.invariant ?_ (fun s s' h step => h.step step) h
  rintro s rfl
  exact ⟨rfl, fun r mem => by cases mem⟩

/-! ### What a step does to one registry -/

/-- The control was stopped, or a call in progress is about to stop it. -/
def Settled (s : Registries) (control : Nat) : Prop :=
  control ∈ s.stopped ∨ ∃ parentId controls waits,
    .stopping controls waits ∈ s.calls ∧ (parentId, control) ∈ controls

/-- What a step can do to the registry at `i`. -/
inductive RegistryStep (s s' : Registries) (i : Nat) (r : Registry) : Registry → Prop
  | same : RegistryStep s s' i r r
  | reserved (x : Registration) (parentId : UInt32) (r' : Registry) (added : Nat)
      (reserving : .reserving x parentId ∈ s.calls)
      (result : r.reserve x.workerId ⟨x.registrationId, parentId⟩ x.serial =
        (some added, r')) : RegistryStep s s' i r r'
  | attached (workerId : UInt32) (registrationId : UInt64) (control : Nat)
      (registered : r.state.registered workerId registrationId = true)
      (stops : r.state.closing = true → s'.Settled control) :
      RegistryStep s s' i r
        { r with controls := Function.update r.controls workerId (some control) }
  | closed (stops : ∀ parentId control, r.OnRecord parentId control → s'.Settled control) :
      RegistryStep s s' i r r.close
  | unregistered (x : Registration) (r' : Registry) (removed : Nat)
      (alive : x ∈ s.registrations)
      (result : r.unregister x.workerId x.registrationId = (removed, r')) :
      RegistryStep s s' i r r'

/-- A registry that was put back, at its own place and elsewhere. -/
theorem getElem?_setRegistry {s : Registries} {i j : Nat} {r found : Registry}
    (r' : Registry) (current : s.registries[j]? = some r) (h : s.registries[i]? = some found) :
    i = j ∧ found = r ∧ (s.setRegistry j r').registries[i]? = some r' ∨
      i ≠ j ∧ (s.setRegistry j r').registries[i]? = some found := by
  by_cases hij : i = j
  · subst hij
    rw [current] at h
    obtain rfl := Option.some.inj h
    refine .inl ⟨rfl, rfl, ?_⟩
    rw [setRegistry, List.getElem?_set_self (List.getElem?_eq_some_iff.mp current).choose]
  · refine .inr ⟨hij, ?_⟩
    rw [setRegistry, List.getElem?_set_ne (fun h => hij h.symm), h]

/-- Every registry goes on, by one of the sections or unchanged. -/
theorem Step.registry {s s' : Registries} (step : Step s s') {i : Nat} {r : Registry}
    (h : s.registries[i]? = some r) :
    ∃ r', s'.registries[i]? = some r' ∧ RegistryStep s s' i r r' := by
  cases step with
  | newRegistry =>
      refine ⟨r, ?_, .same⟩
      show (s.registries ++ [Registry.new])[i]? = some r
      rw [List.getElem?_append_left (List.getElem?_eq_some_iff.mp h).choose, h]
  | allocate j workerId parentId => exact ⟨r, h, .same⟩
  | reserved before after x parentId r₀ r' added calls current result =>
      rcases getElem?_setRegistry r' current h with ⟨rfl, rfl, h'⟩ | ⟨-, h'⟩
      · refine ⟨r', h', .reserved x parentId r' added ?_ result⟩
        rw [calls]
        simp
      · exact ⟨r, h', .same⟩
  | refused before after x parentId r₀ r' calls current result => exact ⟨r, h, .same⟩
  | attach j workerId registrationId control r₀ r' stops current result =>
      rcases getElem?_setRegistry r' current h with ⟨rfl, rfl, h'⟩ | ⟨-, h'⟩
      · refine ⟨r', h', ?_⟩
        rcases Registry.attach_cases result with ⟨hregistered, hstops, rfl⟩ | ⟨-, rfl⟩
        · refine .attached workerId registrationId control hregistered fun hclosing => ?_
          refine .inr ⟨0, [(0, control)], none, ?_, List.mem_singleton_self _⟩
          rw [hstops, hclosing]
          exact List.mem_cons_self
        · exact .same
      · exact ⟨r, h', .same⟩
  | close j r₀ controls waits current collected sorted =>
      rcases getElem?_setRegistry r₀.close current h with ⟨rfl, rfl, h'⟩ | ⟨-, h'⟩
      · refine ⟨r.close, h', .closed fun parentId control on => .inr ?_⟩
        exact ⟨parentId, controls, _, List.mem_cons_self, (collected parentId control).mpr on⟩
      · exact ⟨r, h', .same⟩
  | stop before after parentId control controls waits calls => exact ⟨r, h, .same⟩
  | finish before after waits calls => exact ⟨r, h, .same⟩
  | drained before after j r₀ calls current zero => exact ⟨r, h, .same⟩
  | drop before after x r₀ r' removed alive current result =>
      rcases getElem?_setRegistry r' current h with ⟨rfl, rfl, h'⟩ | ⟨-, h'⟩
      · refine ⟨r', h', .unregistered x r' removed ?_ result⟩
        rw [alive]
        simp
      · exact ⟨r, h', .same⟩

/-- A registry is as new, or was there before. -/
theorem Step.registry_back {s s' : Registries} (step : Step s s') {i : Nat} {r' : Registry}
    (h : s'.registries[i]? = some r') :
    r' = Registry.new ∨ ∃ r, s.registries[i]? = some r ∧ RegistryStep s s' i r r' := by
  rcases hr : s.registries[i]? with _ | r
  · left
    have hlen := List.getElem?_eq_none_iff.mp hr
    have hlen' := (List.getElem?_eq_some_iff.mp h).choose
    cases step with
    | newRegistry =>
        change i < (s.registries ++ [Registry.new]).length at hlen'
        change (s.registries ++ [Registry.new])[i]? = some r' at h
        rw [List.length_append, List.length_singleton] at hlen'
        obtain rfl : i = s.registries.length := by omega
        rw [List.getElem?_concat_length] at h
        exact (Option.some.inj h).symm
    | reserved before after x parentId r₀ r₁ added calls current result =>
        change i < (s.registries.set x.registry r₁).length at hlen'
        rw [List.length_set] at hlen'
        omega
    | attach j workerId registrationId control r₀ r₁ stops current result =>
        change i < (s.registries.set j r₁).length at hlen'
        rw [List.length_set] at hlen'
        omega
    | close j r₀ controls waits current collected sorted =>
        change i < (s.registries.set j r₀.close).length at hlen'
        rw [List.length_set] at hlen'
        omega
    | drop before after x r₀ r₁ removed alive current result =>
        change i < (s.registries.set x.registry r₁).length at hlen'
        rw [List.length_set] at hlen'
        omega
    | _ => exact absurd hlen' (by simpa using hlen)
  · right
    obtain ⟨r'', h', change⟩ := step.registry hr
    rw [h] at h'
    obtain rfl := Option.some.inj h'
    exact ⟨r, rfl, change⟩

/-! ### Closed registries -/

/-- A closed registry stays so, and takes no worker. -/
theorem RegistryStep.closing {s s' : Registries} {i : Nat} {r r' : Registry}
    (change : RegistryStep s s' i r r') (h : r.state.closing = true) :
    r'.state.closing = true ∧ ∀ workerId record,
      r'.state.workers.lookup workerId = some record →
        r.state.workers.lookup workerId = some record := by
  cases change with
  | same => exact ⟨h, fun workerId record found => found⟩
  | reserved x parentId r' added reserving result =>
      rw [(Registry.reserve_some result).1] at h
      cases h
  | attached workerId registrationId control registered stops =>
      exact ⟨h, fun workerId record found => found⟩
  | closed stops => exact ⟨rfl, fun workerId record found => found⟩
  | unregistered x r' removed alive result =>
      rcases Registry.unregister_cases result with ⟨-, hstate, -, -, -, -⟩ | ⟨-, -, rfl⟩
      · rw [hstate]
        refine ⟨h, fun workerId record found => ?_⟩
        have hne : workerId ≠ x.workerId := by
          rintro rfl
          rw [Finmap.lookup_erase] at found
          cases found
        rwa [Finmap.lookup_erase_ne hne] at found
      · exact ⟨h, fun workerId record found => found⟩

/-- Of a closed registry no registration comes to be. -/
theorem Step.registrations_closing {s s' : Registries} (step : Step s s') {i : Nat} {r : Registry}
    (h : s.registries[i]? = some r) (closing : r.state.closing = true) {x : Registration}
    (mem : x ∈ s'.registrations) (hx : x.registry = i) : x ∈ s.registrations := by
  cases step with
  | reserved before after y parentId r₀ r' added calls current result =>
      rcases List.mem_cons.mp mem with rfl | mem
      · rw [hx, h] at current
        obtain rfl := Option.some.inj current
        rw [(Registry.reserve_some result).1] at closing
        cases closing
      · exact mem
  | drop before after y r₀ r' removed alive current result =>
      rw [alive]
      rcases List.mem_append.mp mem with mem | mem
      · exact List.mem_append_left _ mem
      · exact List.mem_append_right _ (List.mem_cons_of_mem _ mem)
  | _ => exact mem

/-- What a run leaves of a closed registry. -/
structure ClosedSince (s s' : Registries) (i : Nat) (r r' : Registry) : Prop where
  closing : r'.state.closing = true
  workers : ∀ workerId record, r'.state.workers.lookup workerId = some record →
    r.state.workers.lookup workerId = some record
  registrations : ∀ x ∈ s'.registrations, x.registry = i → x ∈ s.registrations

theorem closed_since {s s' : Registries} (run : Transition.Run Step s s') {i : Nat} {r : Registry}
    (h : s.registries[i]? = some r) (closing : r.state.closing = true) :
    ∃ r', s'.registries[i]? = some r' ∧ ClosedSince s s' i r r' := by
  induction run with
  | refl => exact ⟨r, h, closing, fun _ _ found => found, fun _ mem _ => mem⟩
  | tail run last ih =>
      obtain ⟨r₁, h₁, since⟩ := ih
      obtain ⟨r', h', change⟩ := last.registry h₁
      obtain ⟨hclosing, hworkers⟩ := change.closing since.closing
      refine ⟨r', h', hclosing, fun workerId record found => ?_, fun x mem hx => ?_⟩
      · exact since.workers workerId record (hworkers workerId record found)
      · exact since.registrations x (last.registrations_closing h₁ since.closing mem hx) hx

/-! ### Stops -/

/-- A call goes on, is at its end, or was stopping and has one control less to stop. -/
theorem mem_middle {α : Type} {xs before after : List α} {x y : α}
    (h : xs = before ++ x :: after) (mem : y ∈ xs) : y = x ∨ y ∈ before ++ after := by
  rw [h] at mem
  rcases List.mem_append.mp mem with mem | mem
  · exact .inr (List.mem_append_left _ mem)
  · rcases List.mem_cons.mp mem with rfl | mem
    · exact .inl rfl
    · exact .inr (List.mem_append_right _ mem)

theorem mem_middle_of {α : Type} {before after : List α} {x y : α}
    (mem : y ∈ before ++ after) : y ∈ before ++ x :: after := by
  rcases List.mem_append.mp mem with mem | mem
  · exact List.mem_append_left _ mem
  · exact List.mem_append_right _ (List.mem_cons_of_mem _ mem)

/-- A control that is to be stopped stays so until it was. -/
theorem Settled.step {s s' : Registries} {control : Nat} (h : s.Settled control)
    (step : Step s s') : s'.Settled control := by
  rcases h with stopped | ⟨parentId, controls, waits, call, mem⟩
  · left
    cases step with
    | stop before after parentId control controls waits calls =>
        exact List.mem_cons_of_mem _ stopped
    | _ => exact stopped
  · cases step with
    | allocate i workerId parentId' =>
        exact .inr ⟨parentId, controls, waits, List.mem_cons_of_mem _ call, mem⟩
    | reserved before after x parentId' r r' added calls current result =>
        rcases mem_middle calls call with h | call
        · cases h
        · exact .inr ⟨parentId, controls, waits, call, mem⟩
    | refused before after x parentId' r r' calls current result =>
        rcases mem_middle calls call with h | call
        · cases h
        · exact .inr ⟨parentId, controls, waits, call, mem⟩
    | attach i workerId registrationId control' r r' stops current result =>
        refine .inr ⟨parentId, controls, waits, ?_, mem⟩
        show _ ∈ (if stops then .stopping [(0, control')] none :: s.calls else s.calls)
        split
        · exact List.mem_cons_of_mem _ call
        · exact call
    | close i r controls' waits' current collected sorted =>
        exact .inr ⟨parentId, controls, waits, List.mem_cons_of_mem _ call, mem⟩
    | stop before after parentId' control' controls' waits' calls =>
        -- Whether the call that moves is the one that has the control to stop.
        rcases mem_middle calls call with h | call
        · obtain ⟨rfl, -⟩ := Call.stopping.inj h
          rcases List.mem_cons.mp mem with h | mem
          -- The control that is stopped is ours, or ours is among the rest.
          · left
            rw [(Prod.mk.inj h).2]
            exact List.mem_cons_self
          · refine .inr ⟨parentId, controls', waits', ?_, mem⟩
            exact List.mem_append_right _ List.mem_cons_self
        · exact .inr ⟨parentId, controls, waits, mem_middle_of call, mem⟩
    | finish before after waits' calls =>
        rcases mem_middle calls call with h | call
        · rw [(Call.stopping.inj h).1] at mem
          cases mem
        · exact .inr ⟨parentId, controls, waits, call, mem⟩
    | drained before after i r calls current zero =>
        rcases mem_middle calls call with h | call
        · rw [(Call.stopping.inj h).1] at mem
          cases mem
        · exact .inr ⟨parentId, controls, waits, call, mem⟩
    | _ => exact .inr ⟨parentId, controls, waits, call, mem⟩

theorem settled_run {s s' : Registries} (run : Transition.Run Step s s') {control : Nat}
    (h : s.Settled control) : s'.Settled control :=
  Transition.Run.invariant (P := fun s => s.Settled control)
    (fun _ _ h step => h.step step) run h

/-- A closed registry leaves no control on record alone. -/
def Stopping (s : Registries) : Prop :=
  ∀ (i : Nat) (r : Registry), s.registries[i]? = some r → r.state.closing = true →
    ∀ parentId control, r.OnRecord parentId control → s.Settled control

theorem Stopping.step {s s' : Registries} (h : Stopping s) (step : Step s s') : Stopping s' := by
  intro i r' hr' closing parentId control on
  rcases step.registry_back hr' with rfl | ⟨r, hr, change⟩
  · cases closing
  cases change with
  | same => exact (h i _ hr closing parentId control on).step step
  | reserved x parentId' r' added reserving result =>
      obtain ⟨hopen, hstate, -, -, -, -⟩ := Registry.reserve_some result
      rw [hstate] at closing
      rw [hopen] at closing
      cases closing
  | attached workerId registrationId control' registered stops =>
      obtain ⟨id, record, hfound, hparent, hcontrol⟩ := on
      dsimp only at hcontrol
      by_cases hid : id = workerId
      · subst hid
        rw [Function.update_self] at hcontrol
        obtain rfl := Option.some.inj hcontrol
        exact stops closing
      · rw [Function.update_of_ne hid] at hcontrol
        exact (h i r hr closing parentId control ⟨id, record, hfound, hparent, hcontrol⟩).step step
  | closed stops => exact stops parentId control on
  | unregistered x r' removed alive result =>
      have hclosing : r.state.closing = true := by
        rcases Registry.unregister_cases result with ⟨-, hstate, -, -, -, -⟩ | ⟨-, -, rfl⟩
        · rwa [hstate] at closing
        · exact closing
      have on' := Registry.onRecord_unregister result on
      exact (h i r hr hclosing parentId control on').step step

theorem stopping {s : Registries} (h : Reachable s) : Stopping s := by
  refine Transition.Reachable.invariant ?_ (fun s s' h step => h.step step) h
  rintro s rfl i r hr
  cases hr

/-! ### Waiting for a registry to be empty -/

/-- Whoever waits for a registry has closed it. -/
structure Waits (s : Registries) : Prop where
  waiting : ∀ controls i, .stopping controls (some i) ∈ s.calls →
    ∃ r, s.registries[i]? = some r ∧ r.state.closing = true
  drained : ∀ i ∈ s.drained,
    ∃ r, s.registries[i]? = some r ∧ r.state.closing = true ∧ r.state.workers = ∅

theorem closing_step {s s' : Registries} (step : Step s s') {i : Nat}
    (h : ∃ r, s.registries[i]? = some r ∧ r.state.closing = true) :
    ∃ r, s'.registries[i]? = some r ∧ r.state.closing = true := by
  obtain ⟨r, hr, closing⟩ := h
  obtain ⟨r', hr', change⟩ := step.registry hr
  exact ⟨r', hr', (change.closing closing).1⟩

theorem workers_empty {state : RegistryState} (h : state.len = 0) : state.workers = ∅ := by
  refine Finmap.ext_lookup fun workerId => ?_
  rw [Finmap.lookup_empty, Finmap.lookup_eq_none, ← Finmap.mem_keys]
  rw [Finset.card_eq_zero.mp h]
  exact Finset.notMem_empty _

theorem drained_step {s s' : Registries} (step : Step s s') {i : Nat}
    (h : ∃ r, s.registries[i]? = some r ∧ r.state.closing = true ∧ r.state.workers = ∅) :
    ∃ r, s'.registries[i]? = some r ∧ r.state.closing = true ∧ r.state.workers = ∅ := by
  obtain ⟨r, hr, closing, empty⟩ := h
  obtain ⟨r', hr', change⟩ := step.registry hr
  obtain ⟨closing', workers'⟩ := change.closing closing
  refine ⟨r', hr', closing', Finmap.ext_lookup fun workerId => ?_⟩
  rw [Finmap.lookup_empty]
  rcases hfound : r'.state.workers.lookup workerId with _ | record
  · rfl
  · have := workers' workerId record hfound
    rw [empty, Finmap.lookup_empty] at this
    cases this

/-- The calls that wait, after a step: they waited before, or they are a `close_and_wait` that
has just closed its registry. -/
theorem Step.waits_back {s s' : Registries} (step : Step s s') {controls : List (UInt32 × Nat)}
    {i : Nat} (h : .stopping controls (some i) ∈ s'.calls) :
    (∃ controls', .stopping controls' (some i) ∈ s.calls) ∨
      ∃ r, s'.registries[i]? = some r ∧ r.state.closing = true := by
  cases step with
  | allocate j workerId parentId =>
      rcases List.mem_cons.mp h with h | h
      · cases h
      · exact .inl ⟨controls, h⟩
  | reserved before after x parentId r r' added calls current result =>
      exact .inl ⟨controls, by rw [calls]; exact mem_middle_of h⟩
  | refused before after x parentId r r' calls current result =>
      exact .inl ⟨controls, by rw [calls]; exact mem_middle_of h⟩
  | attach j workerId registrationId control r r' stops current result =>
      change _ ∈ (if stops then .stopping [(0, control)] none :: s.calls else s.calls) at h
      split at h
      · rcases List.mem_cons.mp h with h | h
        · cases h
        · exact .inl ⟨controls, h⟩
      · exact .inl ⟨controls, h⟩
  | close j r controls' waits current collected sorted =>
      rcases List.mem_cons.mp h with h | h
      · have hwaits := (Call.stopping.inj h).2
        split at hwaits
        · obtain rfl := Option.some.inj hwaits
          refine .inr ⟨r.close, ?_, rfl⟩
          exact List.getElem?_set_self (List.getElem?_eq_some_iff.mp current).choose
        · cases hwaits
      · exact .inl ⟨controls, h⟩
  | stop before after parentId control controls' waits calls =>
      rcases mem_middle rfl h with h | h
      · obtain ⟨rfl, rfl⟩ := Call.stopping.inj h
        refine .inl ⟨(parentId, control) :: controls, ?_⟩
        rw [calls]
        exact List.mem_append_right _ List.mem_cons_self
      · exact .inl ⟨controls, by rw [calls]; exact mem_middle_of h⟩
  | finish before after waits calls =>
      exact .inl ⟨controls, by rw [calls]; exact mem_middle_of h⟩
  | drained before after j r calls current zero =>
      exact .inl ⟨controls, by rw [calls]; exact mem_middle_of h⟩
  | _ => exact .inl ⟨controls, h⟩

theorem Waits.step {s s' : Registries} (count : Counted s) (h : Waits s) (step : Step s s') :
    Waits s' := by
  constructor
  · intro controls i call
    rcases step.waits_back call with ⟨controls', call⟩ | closed
    · exact closing_step step (h.waiting controls' i call)
    · exact closed
  · intro i mem
    have old : i ∈ s.drained →
        ∃ r, s'.registries[i]? = some r ∧ r.state.closing = true ∧ r.state.workers = ∅ :=
      fun mem => drained_step step (h.drained i mem)
    cases step with
    | drained before after j r calls current zero =>
        rcases List.mem_cons.mp mem with rfl | mem
        · obtain ⟨r₁, h₁, closing⟩ := h.waiting [] i (by rw [calls]; simp)
          rw [current] at h₁
          obtain rfl := Option.some.inj h₁
          have hlen := count.published r (List.mem_of_getElem? current)
          exact ⟨r, current, closing, workers_empty (hlen.symm.trans zero)⟩
        · exact old mem
    | _ => exact old mem

theorem waits {s : Registries} (h : Reachable s) : Waits s := by
  refine Transition.Reachable.invariant_of (fun s h => counted h) ?_
    (fun s s' count h step => h.step count step) h
  rintro s rfl
  exact ⟨fun controls i call => (by cases call), fun i mem => (by cases mem)⟩

/-! ### Registration ids -/

/-- Fewer than 2^64 registration ids are pairwise different. -/
theorem registrationIdOf_inj {m n : Nat} (hm : m < UInt64.size) (hn : n < UInt64.size)
    (h : registrationIdOf m = registrationIdOf n) : m = n := by
  have h := congrArg UInt64.toNat h
  simp only [registrationIdOf, UInt64.toNat_ofNat'] at h
  rw [show UInt64.size = 2 ^ 64 from rfl] at hm hn
  omega

/-- What has a registration id has the one of its serial number. -/
structure Numbered (s : Registries) : Prop where
  next : s.nextRegistrationId = registrationIdOf s.allocated
  calls : ∀ x parentId, .reserving x parentId ∈ s.calls →
    x.registrationId = registrationIdOf x.serial ∧ x.serial < s.allocated
  registrations : ∀ x ∈ s.registrations,
    x.registrationId = registrationIdOf x.serial ∧ x.serial < s.allocated
  records : ∀ (i : Nat) (r : Registry), s.registries[i]? = some r →
    ∀ workerId record, r.state.workers.lookup workerId = some record →
      record.registrationId = registrationIdOf (r.serials workerId) ∧
        r.serials workerId < s.allocated

theorem registrationIdOf_succ (serial : Nat) :
    registrationIdOf serial + 1 = registrationIdOf (serial + 1) := by
  simp only [registrationIdOf, UInt64.ofNat_add]
  rfl

theorem Step.allocated_le {s s' : Registries} (step : Step s s') : s.allocated ≤ s'.allocated := by
  cases step with
  | allocate i workerId parentId => exact Nat.le_succ _
  | _ => exact Nat.le_refl _

/-- The registrations that are being reserved were so before, but for one that was just
numbered. -/
theorem Step.reserving_back {s s' : Registries} (step : Step s s') {x : Registration}
    {parentId : UInt32} (h : .reserving x parentId ∈ s'.calls) :
    .reserving x parentId ∈ s.calls ∨
      x.registrationId = s.nextRegistrationId ∧ x.serial = s.allocated ∧
        s'.allocated = s.allocated + 1 := by
  cases step with
  | allocate i workerId parentId' =>
      rcases List.mem_cons.mp h with h | h
      · obtain ⟨rfl, -⟩ := Call.reserving.inj h
        exact .inr ⟨rfl, rfl, rfl⟩
      · exact .inl h
  | reserved before after y parentId' r r' added calls current result =>
      exact .inl (by rw [calls]; exact mem_middle_of h)
  | refused before after y parentId' r r' calls current result =>
      exact .inl (by rw [calls]; exact mem_middle_of h)
  | attach i workerId registrationId control r r' stops current result =>
      left
      change _ ∈ (if stops then .stopping [(0, control)] none :: s.calls else s.calls) at h
      split at h
      · rcases List.mem_cons.mp h with h | h
        · cases h
        · exact h
      · exact h
  | close i r controls waits current collected sorted =>
      rcases List.mem_cons.mp h with h | h
      · cases h
      · exact .inl h
  | stop before after parentId' control controls waits calls =>
      rcases mem_middle rfl h with h | h
      · cases h
      · exact .inl (by rw [calls]; exact mem_middle_of h)
  | finish before after waits calls => exact .inl (by rw [calls]; exact mem_middle_of h)
  | drained before after i r calls current zero =>
      exact .inl (by rw [calls]; exact mem_middle_of h)
  | _ => exact .inl h

/-- A registration comes from a call of `reserve`. -/
theorem Step.registrations_back {s s' : Registries} (step : Step s s') {x : Registration}
    (mem : x ∈ s'.registrations) :
    x ∈ s.registrations ∨ ∃ parentId, .reserving x parentId ∈ s.calls := by
  cases step with
  | reserved before after y parentId r r' added calls current result =>
      rcases List.mem_cons.mp mem with rfl | mem
      · exact .inr ⟨parentId, by rw [calls]; simp⟩
      · exact .inl mem
  | drop before after y r r' removed alive current result =>
      rw [alive]
      exact .inl (mem_middle_of mem)
  | _ => exact .inl mem

theorem Numbered.step {s s' : Registries} (h : Numbered s) (step : Step s s') : Numbered s' := by
  have hle := step.allocated_le
  have later : ∀ {id : UInt64} {serial : Nat},
      id = registrationIdOf serial ∧ serial < s.allocated →
        id = registrationIdOf serial ∧ serial < s'.allocated :=
    fun known => ⟨known.1, Nat.lt_of_lt_of_le known.2 hle⟩
  -- What may become current was allocated before: for calls, registrations and records.
  constructor
  · cases step with
    | allocate i workerId parentId =>
        show s.nextRegistrationId + 1 = registrationIdOf (s.allocated + 1)
        rw [h.next, registrationIdOf_succ]
    | _ => exact h.next
  · intro x parentId call
    rcases step.reserving_back call with call | ⟨hid, hserial, hallocated⟩
    · exact later (h.calls x parentId call)
    · rw [hid, hserial, h.next, hallocated]
      exact ⟨rfl, Nat.lt_succ_self _⟩
  · intro x mem
    rcases step.registrations_back mem with mem | ⟨parentId, call⟩
    · exact later (h.registrations x mem)
    · exact later (h.calls x parentId call)
  · intro i r' hr' workerId record found
    rcases step.registry_back hr' with rfl | ⟨r, hr, change⟩
    · rw [Registry.new, RegistryState.new, Finmap.lookup_empty] at found
      cases found
    cases change with
    | reserved x parentId r' added reserving result =>
        obtain ⟨-, hstate, -, hserials, -, -⟩ := Registry.reserve_some result
        rw [hstate] at found
        rw [hserials]
        -- The record that was entered, and those of other workers.
        by_cases hid : workerId = x.workerId
        · rw [hid, Finmap.lookup_insert] at found
          obtain rfl := Option.some.inj found
          rw [hid, Function.update_self]
          exact later (h.calls x parentId reserving)
        · rw [Finmap.lookup_insert_of_ne _ hid] at found
          rw [Function.update_of_ne hid]
          exact later (h.records i r hr workerId record found)
    | unregistered x r' removed alive result =>
        rcases Registry.unregister_cases result with ⟨-, hstate, -, hserials, -, -⟩ | ⟨-, -, rfl⟩
        · rw [hstate] at found
          rw [hserials]
          have hne : workerId ≠ x.workerId := by
            rintro rfl
            rw [Finmap.lookup_erase] at found
            cases found
          rw [Finmap.lookup_erase_ne hne] at found
          exact later (h.records i r hr workerId record found)
        · exact later (h.records i r' hr workerId record found)
    | same => exact later (h.records i _ hr workerId record found)
    | attached workerId' registrationId control registered stops =>
        exact later (h.records i r hr workerId record found)
    | closed stops => exact later (h.records i r hr workerId record found)

theorem numbered {s : Registries} (h : Reachable s) : Numbered s := by
  refine Transition.Reachable.invariant ?_ (fun s s' h step => h.step step) h
  rintro s rfl
  refine ⟨rfl, fun x parentId call => ?_, fun x mem => ?_, fun i r hr => ?_⟩
  · cases call
  · cases mem
  · cases hr

/-- The drop of a registration that was replaced does nothing. -/
theorem unregister_replaced {s : Registries} (h : Reachable s) (few : s.allocated ≤ UInt64.size)
    {x : Registration} (alive : x ∈ s.registrations) {r : Registry}
    (current : s.registries[x.registry]? = some r) (replaced : r.serials x.workerId ≠ x.serial) :
    r.unregister x.workerId x.registrationId = (0, r) := by
  rw [Registry.unregister, if_neg]
  intro registered
  rw [RegistryState.registered, Option.any_eq_true] at registered
  obtain ⟨record, found, same⟩ := registered
  obtain ⟨hrecord, hlt⟩ := (numbered h).records x.registry r current x.workerId record found
  obtain ⟨hx, hlt'⟩ := (numbered h).registrations x alive
  have same : record.registrationId = x.registrationId := by simpa using same
  rw [hrecord, hx] at same
  exact replaced (registrationIdOf_inj (hlt.trans_le few) (hlt'.trans_le few) same)

/-! ### The registries -/

/-- In every state the calls can lead to, and every later one: the counts agree; a closed
registry takes no worker, and every control that is on record in it was stopped as soon as no
call has it to stop any more, where what is attached to a current registration is on record;
`close_and_wait` returns true only for a registry that is empty for good. While at most 2^64
registration ids were given out, a registration that was replaced removes nothing. -/
theorem worker_registry {s s' : Registries} (reachable : Reachable s)
    (run : Transition.Run Step s s') :
    (s.activeWorkers = s.workers ∧ ∀ r ∈ s.registries, r.count = r.state.len) ∧
    (∀ (i : Nat) (r : Registry), s.registries[i]? = some r → r.state.closing = true →
      (∀ workerId record serial, (r.reserve workerId record serial).1 = none) ∧
      (∃ r', s'.registries[i]? = some r' ∧ ClosedSince s s' i r r') ∧
      ∀ parentId control, r.OnRecord parentId control →
        (∀ controls waits, .stopping controls waits ∈ s'.calls →
          control ∉ controls.map Prod.snd) → control ∈ s'.stopped) ∧
    (∀ r ∈ s.registries, ∀ workerId registrationId control,
      r.state.registered workerId registrationId = true →
        ∃ parentId, (r.attach workerId registrationId control).2.OnRecord parentId control) ∧
    (∀ i ∈ s.drained, ∃ r', s'.registries[i]? = some r' ∧ r'.state.closing = true ∧
      r'.state.workers = ∅) ∧
    (s.allocated ≤ UInt64.size → ∀ x ∈ s.registrations, ∀ r,
      s.registries[x.registry]? = some r → r.serials x.workerId ≠ x.serial →
        r.unregister x.workerId x.registrationId = (0, r)) := by
  refine ⟨⟨(counted reachable).active, (counted reachable).published⟩, ?_, ?_, ?_, ?_⟩
  · intro i r hr closing
    refine ⟨fun workerId record serial => ?_, closed_since run hr closing, ?_⟩
    · rw [Registry.reserve, RegistryState.reserve, if_pos closing]
    · intro parentId control on done
      rcases settled_run run (stopping reachable i r hr closing parentId control on) with
        stopped | ⟨parentId', controls, waits, call, mem⟩
      · exact stopped
      · exact absurd (List.mem_map_of_mem mem) (done controls waits call)
  · intro r mem workerId registrationId control registered
    exact Registry.onRecord_attach control registered
  · intro i mem
    exact Transition.Run.invariant
      (P := fun s => ∃ r, s.registries[i]? = some r ∧ r.state.closing = true ∧
        r.state.workers = ∅)
      (fun _ _ h step => drained_step step h) run ((waits reachable).drained i mem)
  · intro few x alive r current replaced
    exact unregister_replaced reachable few alive current replaced

/-! ### Runs -/

/-- The registry of one worker whose registration has a first control attached. -/
def attachedRegistry : Registry :=
  ((Registry.new.reserve 1 ⟨1, 0⟩ 0).2.attach 1 1 7).2

def attached : Registries :=
  { registries := [attachedRegistry], activeWorkers := 1, nextRegistrationId := 2,
    allocated := 1, calls := [], registrations := [⟨0, 1, 1, 0⟩], stopped := [], drained := [] }

theorem attached_reachable : Reachable attached := by
  have begun : Reachable start := Transition.Reachable.start rfl
  have fresh := begun.snoc (.newRegistry _)
  have numbered := fresh.snoc (.allocate _ 0 1 0)
  have reserved := numbered.snoc
    (.reserved _ [] [] ⟨0, 1, 1, 0⟩ 0 Registry.new (Registry.new.reserve 1 ⟨1, 0⟩ 0).2 1 rfl rfl
      rfl)
  exact reserved.snoc
    (.attach _ 0 1 1 7 (Registry.new.reserve 1 ⟨1, 0⟩ 0).2 attachedRegistry false rfl rfl)

/-- A second control is attached to the same registration. -/
def twiceRegistry : Registry := (attachedRegistry.attach 1 1 8).2

def closing : Registries :=
  { attached with
    registries := [twiceRegistry.close]
    calls := [.stopping [(0, 8)] none] }

def closed : Registries := { closing with calls := [], stopped := [8] }

theorem twice_controls (parentId : UInt32) (control : Nat) :
    (parentId, control) ∈ [((0 : UInt32), 8)] ↔ twiceRegistry.OnRecord parentId control := by
  have hlookup : ∀ workerId, twiceRegistry.state.workers.lookup workerId =
      if workerId = 1 then some ⟨1, 0⟩ else none := by
    intro workerId
    have hworkers : twiceRegistry.state.workers =
        (∅ : Finmap fun _ : UInt32 => Record).insert 1 ⟨1, 0⟩ := rfl
    rw [hworkers]
    by_cases h : workerId = 1
    · rw [h, Finmap.lookup_insert, if_pos rfl]
    · rw [Finmap.lookup_insert_of_ne _ h, Finmap.lookup_empty, if_neg h]
  constructor
  · intro mem
    obtain ⟨rfl, rfl⟩ := Prod.mk.inj (List.mem_singleton.mp mem)
    exact ⟨1, ⟨1, 0⟩, hlookup 1, rfl, rfl⟩
  · rintro ⟨workerId, record, hfound, hparent, hcontrol⟩
    rw [hlookup] at hfound
    split at hfound
    · rename_i hid
      obtain rfl := Option.some.inj hfound
      rw [hid] at hcontrol
      have : some 8 = some control := hcontrol
      rw [← hparent, ← Option.some.inj this]
      exact List.mem_singleton_self _
    · cases hfound

theorem closing_run : Transition.Run Step attached closing := by
  refine .tail (.single (.attach _ 0 1 1 8 attachedRegistry twiceRegistry false rfl rfl)) ?_
  exact .close _ 0 twiceRegistry [(0, 8)] false rfl twice_controls (List.pairwise_singleton _ _)

theorem closed_run : Transition.Run Step closing closed :=
  .tail (.single (.stop _ [] [] 0 8 [] none rfl)) (.finish _ [] [] none rfl)

/-- A registry is closed: the control on record is stopped. -/
theorem worker_registry_sample : 8 ∈ closed.stopped :=
  ((worker_registry (Transition.Reachable.run attached_reachable closing_run) closed_run).2.1
      0 _ rfl rfl).2.2 0 8 ((twice_controls 0 8).mp (List.mem_singleton_self _))
    (fun controls waits call => by cases call)

/-- On a closed registry ids are given out and nothing else changes. -/
theorem refuse_run {s : Registries} {r : Registry} (current : s.registries[1]? = some r)
    (closing : r.state.closing = true) (calls : s.calls = []) (n : Nat) :
    Transition.Run Step s { s with
      nextRegistrationId := s.nextRegistrationId + UInt64.ofNat n
      allocated := s.allocated + n } := by
  induction n with
  | zero =>
      rw [show s.nextRegistrationId + UInt64.ofNat 0 = s.nextRegistrationId by simp]
      exact .refl
  | succ n ih =>
      have refused : ∀ record serial, r.reserve 0 record serial = (none, r) := by
        intro record serial
        rw [Registry.reserve, RegistryState.reserve, if_pos closing]
      have allocated := ih.tail (.allocate _ 1 0 0)
      have last := allocated.tail
        (.refused _ [] _ ⟨1, 0, _, _⟩ 0 r r rfl current (refused _ _))
      rw [show UInt64.ofNat (n + 1) = UInt64.ofNat n + 1 by rw [UInt64.ofNat_add]; rfl]
      rw [← UInt64.add_assoc, ← Nat.add_assoc]
      rw [calls] at last
      simpa only [calls, List.nil_append] using last

/-- A worker of one registry, and a closed registry beside it. -/
def besideClosed : Registries :=
  { registries := [(Registry.new.reserve 1 ⟨1, 0⟩ 0).2, Registry.new.close], activeWorkers := 1,
    nextRegistrationId := 2, allocated := 1, calls := [], registrations := [⟨0, 1, 1, 0⟩],
    stopped := [], drained := [] }

theorem besideClosed_reachable : Reachable besideClosed := by
  have begun : Reachable start := Transition.Reachable.start rfl
  have first := begun.snoc (.newRegistry _)
  have fresh := first.snoc (.newRegistry _)
  have none_on_record : ∀ parentId control,
      (parentId, control) ∈ ([] : List (UInt32 × Nat)) ↔
        Registry.new.OnRecord parentId control := by
    intro parentId control
    constructor
    · intro mem
      cases mem
    · rintro ⟨workerId, record, hfound, -, -⟩
      rw [Registry.new, RegistryState.new, Finmap.lookup_empty] at hfound
      cases hfound
  have closes := fresh.snoc
    (.close _ 1 Registry.new [] false rfl none_on_record List.Pairwise.nil)
  have idle := closes.snoc (.finish _ [] [] none rfl)
  have numbered := idle.snoc (.allocate _ 0 1 0)
  exact numbered.snoc
    (.reserved _ [] [] ⟨0, 1, 1, 0⟩ 0 Registry.new (Registry.new.reserve 1 ⟨1, 0⟩ 0).2 1 rfl rfl
      rfl)

def wrapped : Registries :=
  { besideClosed with nextRegistrationId := 1, allocated := UInt64.size }

theorem wrapped_reachable : Reachable wrapped := by
  have run := refuse_run (s := besideClosed) rfl rfl rfl (UInt64.size - 1)
  have hnext : besideClosed.nextRegistrationId + UInt64.ofNat (UInt64.size - 1) = 1 := by decide
  have hallocated : besideClosed.allocated + (UInt64.size - 1) = UInt64.size := by decide
  rw [hnext, hallocated] at run
  exact Transition.Reachable.run besideClosed_reachable run

/-- The worker is reserved again, under the registration id that the first one has. -/
def newerRegistry : Registry :=
  ((Registry.new.reserve 1 ⟨1, 0⟩ 0).2.reserve 1 ⟨1, 0⟩ UInt64.size).2

def replaced : Registries :=
  { wrapped with
    registries := [newerRegistry, Registry.new.close]
    nextRegistrationId := 2
    allocated := UInt64.size + 1
    registrations := [⟨0, 1, 1, UInt64.size⟩, ⟨0, 1, 1, 0⟩] }

theorem replaced_reachable : Reachable replaced := by
  have numbered := wrapped_reachable.snoc (.allocate _ 0 1 0)
  exact numbered.snoc
    (.reserved _ [] [] ⟨0, 1, 1, UInt64.size⟩ 0 (Registry.new.reserve 1 ⟨1, 0⟩ 0).2
      newerRegistry 0 rfl rfl rfl)

/-- Of two controls attached to one registration only the second is stopped; and after 2^64
ids the drop of a replaced registration removes the newer record. -/
theorem worker_registry_limits :
    (∃ s t r r', Reachable s ∧ Transition.Run Step s t ∧ s.registries[0]? = some r ∧
      r.OnRecord 0 7 ∧ r.state.registered 1 1 = true ∧ t.registrations = s.registrations ∧
      t.registries[0]? = some r' ∧ r'.state.registered 1 1 = true ∧
      r'.state.closing = true ∧ t.calls = [] ∧ 7 ∉ t.stopped) ∧
    ∃ s t r r', ∃ older newer : Registration, Reachable s ∧ Step s t ∧
      s.registrations = [newer, older] ∧ t.registrations = [newer] ∧ newer ≠ older ∧
      s.registries[0]? = some r ∧ newer.registry = 0 ∧
      r.serials newer.workerId = newer.serial ∧
      (r.state.workers.lookup newer.workerId).isSome = true ∧
      t.registries[0]? = some r' ∧ r'.state.workers.lookup newer.workerId = none := by
  constructor
  · refine ⟨attached, closed, attachedRegistry, twiceRegistry.close, attached_reachable,
      closing_run.trans closed_run, rfl, ⟨1, ⟨1, 0⟩, rfl, rfl, rfl⟩, rfl, rfl, rfl, rfl, rfl, rfl,
      by decide⟩
  · have last : Step replaced _ :=
      .drop _ [⟨0, 1, 1, UInt64.size⟩] [] ⟨0, 1, 1, 0⟩ newerRegistry
        (newerRegistry.unregister 1 1).2 1 rfl rfl rfl
    refine ⟨replaced, _, newerRegistry, (newerRegistry.unregister 1 1).2, ⟨0, 1, 1, 0⟩,
      ⟨0, 1, 1, UInt64.size⟩, replaced_reachable, last, rfl, rfl, ?_, rfl, rfl, rfl, rfl, rfl,
      rfl⟩
    intro same
    have serials := congrArg Registration.serial same
    cases serials

end Registries

end Libdeno.Runs
