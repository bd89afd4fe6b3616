import Mathlib

/-!
# Libdeno.Runs.Workers

`WorkerLifecycleRegistry`: the live workers of one run, by worker id. Each function here
is the section its source runs under the registry's lock. `ACTIVE_WORKERS`, which all
registries share, is changed in such a section at most once, so a section's effect on it
is part of its answer.

The count of live workers never comes near the limit of its type, worker ids being
`u32`, so it is a `Nat`.
-/

namespace Libdeno.Runs

/-- `Record`, without the control that stops the worker. -/
structure Record where
  registrationId : UInt64
  parentId : UInt32
  deriving Repr, DecidableEq

/-- `State` of a registry. -/
structure RegistryState where
  closing : Bool
  workers : Finmap fun _ : UInt32 => Record

namespace RegistryState

/-- `WorkerLifecycleRegistry::new`. -/
def new : RegistryState := { closing := false, workers := ∅ }

/-- `workers.len()`. -/
def len (self : RegistryState) : Nat := self.workers.keys.card

/-- The section of `close`, without the workers it stops. -/
def close (self : RegistryState) : RegistryState := { self with closing := true }

/-- The registration of a worker is the one on record. -/
def registered (self : RegistryState) (workerId : UInt32) (registrationId : UInt64) : Bool :=
  (self.workers.lookup workerId).any (·.registrationId = registrationId)

/-- The section of `reserve`: refused when the registry is closing; otherwise by how much
`ACTIVE_WORKERS` grows. -/
def reserve (self : RegistryState) (workerId : UInt32) (record : Record) :
    Option Nat × RegistryState :=
  if self.closing then
    (none, self)
  else
    let previous := self.workers.lookup workerId
    (some (if previous.isNone then 1 else 0),
      { self with workers := self.workers.insert workerId record })

/-- The section of `unregister`, with by how much `ACTIVE_WORKERS` shrinks. -/
def unregister (self : RegistryState) (workerId : UInt32) (registrationId : UInt64) :
    Nat × RegistryState :=
  if self.registered workerId registrationId then
    (1, { self with workers := self.workers.erase workerId })
  else
    (0, self)

@[simp] theorem len_new : RegistryState.new.len = 0 := rfl

@[simp] theorem len_close (self : RegistryState) : self.close.len = self.len := rfl

theorem mem_of_registered {self : RegistryState} {workerId : UInt32} {registrationId : UInt64}
    (h : self.registered workerId registrationId = true) : workerId ∈ self.workers := by
  rw [registered, Option.any_eq_true] at h
  obtain ⟨record, hlookup, -⟩ := h
  exact Finmap.mem_of_lookup_eq_some hlookup

/-- A registry that has a worker is not empty. -/
theorem len_pos_of_registered {self : RegistryState} {workerId : UInt32}
    {registrationId : UInt64} (h : self.registered workerId registrationId = true) :
    0 < self.len :=
  Finset.card_pos.mpr ⟨workerId, Finmap.mem_keys.mpr (mem_of_registered h)⟩

/-- `reserve` counts the workers it adds. -/
theorem len_reserve {self state : RegistryState} {workerId : UInt32} {record : Record}
    {added : Nat} (h : self.reserve workerId record = (some added, state)) :
    state.len = self.len + added := by
  unfold reserve at h
  split at h
  · cases h
  · obtain ⟨hadded, rfl⟩ := Prod.mk.inj h
    obtain rfl := Option.some.inj hadded
    have hkeys : (self.workers.insert workerId record).keys = insert workerId self.workers.keys := by
      ext id
      simp [Finmap.mem_keys]
    rw [len, len, hkeys]
    by_cases hmem : workerId ∈ self.workers
    · have hsome : (self.workers.lookup workerId).isNone = false := by
        rw [← Finmap.lookup_isSome] at hmem
        simpa using hmem
      rw [Finset.insert_eq_of_mem (Finmap.mem_keys.mpr hmem), hsome]
      rfl
    · have hnone : (self.workers.lookup workerId).isNone = true := by
        rw [Finmap.lookup_eq_none.mpr hmem]
        rfl
      rw [Finset.card_insert_of_notMem (fun h => hmem (Finmap.mem_keys.mp h)), hnone]
      rfl

/-- `unregister` counts the worker it removes. -/
theorem len_unregister {self state : RegistryState} {workerId : UInt32}
    {registrationId : UInt64} {removed : Nat}
    (h : self.unregister workerId registrationId = (removed, state)) :
    state.len + removed = self.len := by
  unfold unregister at h
  split at h
  · next hregistered =>
    obtain ⟨rfl, rfl⟩ := Prod.mk.inj h
    have hmem := Finmap.mem_keys.mpr (mem_of_registered hregistered)
    rw [len, len, Finmap.keys_erase, Finset.card_erase_add_one hmem]
  · obtain ⟨rfl, rfl⟩ := Prod.mk.inj h
    rfl

end RegistryState

end Libdeno.Runs
