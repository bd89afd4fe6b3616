import Mathlib.Data.List.DropRight
import Mathlib.Data.List.Nodup
import Mathlib.Logic.Function.Basic

/-!
# Libdeno.Library.FifoMap

**A map of bounded size that forgets first what was entered first.** The abstract map forgets
nothing: it has the list of all keys that were entered as new, and for each key what was
inserted last. Only the last `capacity` entered keys are `held`; what is not held is not found,
and is entered anew when it is inserted again. A key that is held is not entered again, so its
age is that of its entry.

* the held keys are distinct (`Distinct.run`), and at most `capacity` (`length_held_le`);
* what a key has is what was inserted last (`value_run`);
* a key is lost only to as many distinct other keys as the map holds (`Distinct.evicted`).

Nothing here mentions a particular program.
-/

variable {κ α : Type*}

/-- What was entered, the oldest first, and what was inserted last. -/
structure FifoMap (κ α : Type*) where
  entered : List κ
  value : κ → Option α

namespace FifoMap

/-- What a map is asked to do. -/
inductive Op (κ α : Type*)
  | insert (key : κ) (value : α)
  | get (key : κ)

def Op.Inserts (op : Op κ α) (key : κ) : Prop := ∃ value, op = .insert key value

def empty : FifoMap κ α := { entered := [], value := fun _ => none }

/-- The keys that are not forgotten. -/
def held (capacity : ℕ) (m : FifoMap κ α) : List κ := m.entered.rtake capacity

variable [DecidableEq κ] (capacity : ℕ)

def get (m : FifoMap κ α) (key : κ) : Option α :=
  if key ∈ m.held capacity then m.value key else none

def insert (m : FifoMap κ α) (key : κ) (value : α) : FifoMap κ α where
  entered := if key ∈ m.held capacity then m.entered else m.entered ++ [key]
  value := Function.update m.value key (some value)

def step (m : FifoMap κ α) : Op κ α → FifoMap κ α
  | .insert key value => m.insert capacity key value
  | .get _ => m

def run (m : FifoMap κ α) (ops : List (Op κ α)) : FifoMap κ α := ops.foldl (step capacity) m

/-- What the lookups of a history find. -/
def answers (m : FifoMap κ α) : List (Op κ α) → List (Option α)
  | [] => []
  | .insert key value :: ops => answers (m.insert capacity key value) ops
  | .get key :: ops => m.get capacity key :: answers m ops

variable {capacity} {m : FifoMap κ α} {key key' : κ} {value : α}

/-! ### What is held -/

omit [DecidableEq κ] in
theorem rtake_append_singleton (keys : List κ) (key : κ) (n : ℕ) :
    (keys ++ [key]).rtake n = (keys.rtake n ++ [key]).rtake n := by
  cases n with
  | zero => simp
  | succ n =>
      rw [List.rtake_concat_succ, List.rtake_concat_succ]
      congr 1
      simp only [List.rtake, List.length_drop, List.drop_drop]
      congr 1
      omega

omit [DecidableEq κ] in
theorem length_held_le (m : FifoMap κ α) : (m.held capacity).length ≤ capacity := by
  simp only [held, List.rtake, List.length_drop]
  omega

omit [DecidableEq κ] in
/-- One key beyond the capacity, and the first one goes. -/
theorem rtake_of_length_le_succ {keys : List κ} (h : keys.length ≤ capacity + 1) :
    keys.rtake capacity = if capacity < keys.length then keys.tail else keys := by
  rw [List.rtake]
  split_ifs with hlt
  · rw [show keys.length - capacity = 1 by omega, List.drop_one]
  · rw [show keys.length - capacity = 0 by omega, List.drop_zero]

theorem held_insert_of_mem (h : key ∈ m.held capacity) :
    (m.insert capacity key value).held capacity = m.held capacity := by
  rw [held, insert, if_pos h, held]

theorem held_insert_of_notMem (h : key ∉ m.held capacity) :
    (m.insert capacity key value).held capacity = (m.held capacity ++ [key]).rtake capacity := by
  rw [held, insert, if_neg h, rtake_append_singleton]
  rfl

/-- What an insertion leaves held: all that was, or all but the oldest. -/
theorem held_insert (h : key ∉ m.held capacity) :
    (m.insert capacity key value).held capacity =
      if capacity < (m.held capacity ++ [key]).length then (m.held capacity ++ [key]).tail
      else m.held capacity ++ [key] := by
  rw [held_insert_of_notMem h, rtake_of_length_le_succ]
  rw [List.length_append, List.length_singleton]
  exact Nat.succ_le_succ (length_held_le m)

/-- What was inserted is held. -/
theorem mem_held_insert (pos : 0 < capacity) :
    key ∈ (m.insert capacity key value).held capacity := by
  by_cases h : key ∈ m.held capacity
  · rw [held_insert_of_mem h]
    exact h
  · obtain ⟨n, rfl⟩ := Nat.exists_eq_add_of_lt pos
    rw [held, insert, if_neg h, Nat.zero_add, List.rtake_concat_succ]
    exact List.mem_append_right _ (List.mem_singleton_self key)

/-! ### Distinct keys -/

/-- No key is held twice. -/
def Distinct (capacity : ℕ) (m : FifoMap κ α) : Prop := (m.held capacity).Nodup

theorem Distinct.insert (inv : Distinct capacity m) :
    Distinct capacity (m.insert capacity key value) := by
  by_cases h : key ∈ m.held capacity
  · rw [Distinct, held_insert_of_mem h]
    exact inv
  · rw [Distinct, held_insert_of_notMem h]
    rw [← List.concat_eq_append]
    exact (List.drop_sublist _ _).nodup (List.Nodup.concat h inv)

theorem Distinct.step (inv : Distinct capacity m) (op : Op κ α) :
    Distinct capacity (m.step capacity op) := by
  cases op with
  | insert key value => exact inv.insert
  | get key => exact inv

theorem Distinct.run (inv : Distinct capacity m) (ops : List (Op κ α)) :
    Distinct capacity (m.run capacity ops) := by
  induction ops generalizing m with
  | nil => exact inv
  | cons op ops ih => exact ih (inv.step op)

omit [DecidableEq κ] in
theorem distinct_empty : Distinct capacity (empty : FifoMap κ α) := by
  simp [Distinct, held, empty]

/-! ### What a key has -/

@[simp] theorem value_insert_self : (m.insert capacity key value).value key = some value :=
  Function.update_self _ _ _

theorem value_insert_of_ne (h : key' ≠ key) :
    (m.insert capacity key value).value key' = m.value key' :=
  Function.update_of_ne h _ _

theorem value_step (op : Op κ α) (h : ¬ op.Inserts key) :
    (m.step capacity op).value key = m.value key := by
  cases op with
  | insert key' value =>
      refine value_insert_of_ne fun heq => h ⟨value, ?_⟩
      rw [heq]
  | get key' => rfl

/-- Where a key is not inserted, it keeps what it has. -/
theorem value_run (ops : List (Op κ α)) (h : ∀ op ∈ ops, ¬ op.Inserts key) :
    (m.run capacity ops).value key = m.value key := by
  induction ops generalizing m with
  | nil => rfl
  | cons op ops ih =>
      obtain ⟨hop, hops⟩ := List.forall_mem_cons.mp h
      exact (ih hops).trans (value_step op hop)

/-! ### What is lost -/

omit [DecidableEq κ] in
/-- The first of more keys than the capacity: those behind it. -/
theorem rtake_concat_lost {keys : List κ} {k : κ} (hlen : keys.length ≤ capacity)
    (mem : k ∈ keys) (lost : k ∉ (keys ++ [key]).rtake capacity) :
    ∃ later, keys = k :: later ∧ (later ++ [key]).length = capacity := by
  rw [rtake_of_length_le_succ (by simpa using hlen)] at lost
  split_ifs at lost with hlt
  · cases keys with
    | nil => cases mem
    | cons first later =>
        rw [List.cons_append, List.tail_cons] at lost
        rcases List.mem_cons.mp mem with rfl | hlater
        · refine ⟨later, rfl, ?_⟩
          simp only [List.length_cons, List.length_append, List.length_nil] at hlen hlt ⊢
          omega
        · exact absurd (List.mem_append_left _ hlater) lost
  · exact absurd (List.mem_append_left _ mem) lost

/-- A key is lost to an insertion only after as many distinct other keys were entered as the
map holds, this one the last of them. -/
theorem Distinct.evicted (inv : Distinct capacity m) (mem : key ∈ m.held capacity)
    (lost : key ∉ (m.insert capacity key' value).held capacity) :
    key' ∉ m.held capacity ∧ ∃ older later, m.entered = older ++ key :: later ∧
      (later ++ [key']).length = capacity ∧ (later ++ [key']).Nodup ∧ key ∉ later ++ [key'] := by
  have hnew : key' ∉ m.held capacity := by
    intro h
    rw [held_insert_of_mem h] at lost
    exact lost mem
  rw [held_insert_of_notMem hnew] at lost
  obtain ⟨later, hheld, hlen⟩ := rtake_concat_lost (length_held_le m) mem lost
  have hnodup := List.Nodup.concat hnew inv
  rw [List.concat_eq_append, hheld, List.cons_append, List.nodup_cons] at hnodup
  refine ⟨hnew, m.entered.take (m.entered.length - capacity), later, ?_, hlen, hnodup.2,
    hnodup.1⟩
  rw [← hheld, held, List.rtake, List.take_append_drop]

end FifoMap
