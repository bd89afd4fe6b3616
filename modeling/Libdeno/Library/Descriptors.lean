import Mathlib.Tactic.Common

/-!
# Libdeno.Library.Descriptors

**The descriptor table of a Unix process.** A table maps small numbers to open files (of any
type), each entry with its close-on-exec flag; the kernel hands out the lowest number that is
free and not below the one asked for. The calls are total functions of the table: a call on a
number that is not open changes nothing and says so.

Nothing here mentions a particular program.
-/

namespace Descriptors

variable {φ : Type}

/-- An open descriptor: the file it refers to and its `FD_CLOEXEC` flag. -/
structure Descriptor (φ : Type) where
  file : φ
  cloexec : Bool
  deriving Repr, DecidableEq

/-- The entries by number; what lies beyond the list is closed. -/
abbrev Table (φ : Type) := List (Option (Descriptor φ))

namespace Table

/-- What the number `fd` refers to. -/
def entry (table : Table φ) (fd : Nat) : Option (Descriptor φ) := (table[fd]?).join

/-- The table with one entry replaced. -/
def put (table : Table φ) (fd : Nat) (descriptor : Option (Descriptor φ)) : Table φ :=
  (table ++ List.replicate (fd + 1 - table.length) none).set fd descriptor

theorem entry_pad (table : Table φ) (n fd : Nat) :
    entry (table ++ List.replicate n none) fd = table.entry fd := by
  unfold entry
  rw [List.getElem?_append]
  split
  · rfl
  · next hlength =>
    rw [List.getElem?_eq_none (by omega : table.length ≤ fd), List.getElem?_replicate]
    split <;> rfl

@[grind =]
theorem entry_put (table : Table φ) (fd other : Nat) (descriptor : Option (Descriptor φ)) :
    (table.put fd descriptor).entry other =
      if other = fd then descriptor else table.entry other := by
  by_cases h : other = fd
  · subst h
    simp only [entry, put, if_true]
    rw [List.getElem?_set_self (by simp; omega)]
    rfl
  · rw [if_neg h, ← entry_pad table (fd + 1 - table.length) other]
    simp only [entry, put]
    rw [List.getElem?_set_ne (Ne.symm h)]

@[simp] theorem entry_put_self (table : Table φ) (fd : Nat) (descriptor : Option (Descriptor φ)) :
    (table.put fd descriptor).entry fd = descriptor := by
  simp [entry_put]

/-- The first closed entry of a list. -/
def firstFree : Table φ → Nat
  | [] => 0
  | none :: _ => 0
  | some _ :: rest => firstFree rest + 1

theorem firstFree_closed : ∀ table : Table φ, table.entry table.firstFree = none
  | [] => rfl
  | none :: _ => rfl
  | some _ :: rest => firstFree_closed rest

/-- The lowest closed number that is not below `min`. -/
def lowestFree (table : Table φ) (min : Nat) : Nat := min + firstFree (table.drop min)

theorem min_le_lowestFree (table : Table φ) (min : Nat) : min ≤ table.lowestFree min :=
  Nat.le_add_right _ _

theorem lowestFree_closed (table : Table φ) (min : Nat) :
    table.entry (table.lowestFree min) = none := by
  have h := firstFree_closed (table.drop min)
  simpa [entry, lowestFree, List.getElem?_drop] using h

/-! ### The calls -/

/-- `fcntl(fd, F_DUPFD_CLOEXEC, min)`. -/
def dupfdCloexec (table : Table φ) (fd min : Nat) : Option (Nat × Table φ) :=
  (table.entry fd).map fun d =>
    (table.lowestFree min, table.put (table.lowestFree min) (some { d with cloexec := true }))

/-- `fcntl(fd, F_SETFD, flags)`. -/
def setfd (table : Table φ) (fd : Nat) (flags : Bool) : Option (Table φ) :=
  (table.entry fd).map fun d => table.put fd (some { d with cloexec := flags })

/-- `dup2(old, new)`. -/
def dup2 (table : Table φ) (old new : Nat) : Option (Table φ) :=
  (table.entry old).map fun d =>
    if old = new then table else table.put new (some { d with cloexec := false })

/-- `close(fd)`. -/
def close (table : Table φ) (fd : Nat) : Table φ := table.put fd none

/-- `pipe(fds)`: the two ends, each at the lowest number free when it is opened. -/
def pipe (table : Table φ) (readEnd writeEnd : φ) : (Nat × Nat) × Table φ :=
  let first := table.put (table.lowestFree 0) (some { file := readEnd, cloexec := false })
  ((table.lowestFree 0, first.lowestFree 0),
    first.put (first.lowestFree 0) (some { file := writeEnd, cloexec := false }))

end Table

end Descriptors
