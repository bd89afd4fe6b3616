import Mathlib.Tactic.Common

/-!
# Libdeno.Library.Scan

**Scanners that take one symbol at a time.** A machine looks at the next symbol in a state
and goes on, accepts with the symbol, accepts in front of it, or rejects; a state says what
the end of the input means. Since no machine looks further than one symbol ahead, what was
read off a cut input is read off the whole one as well, unless the reading ended only
because the input did: `run_append` for inputs with something left, `run_append_of_closed`
for machines that never accept at an end.
-/

namespace Scan

/-- What reading from the front of an input came to. `eof`: it ended too soon. -/
inductive Reading (β α : Type) where
  | ok (value : α) (rest : List β)
  | eof
  | bad
  deriving DecidableEq, Repr

/-- What a machine does with one symbol. -/
inductive Next (σ α : Type) where
  | goOn (state : σ)
  /-- Done, and the symbol is part of what was read. -/
  | accept (value : α)
  /-- Done, and the symbol is left. -/
  | stop (value : α)
  | reject

/-- What the end of the input means. -/
inductive End (α : Type) where
  | complete (value : α)
  | short
  | wrong

/-- A scanner by its steps. -/
structure Machine (β σ α : Type) where
  next : σ → β → Next σ α
  atEnd : σ → End α

variable {β σ α : Type}

namespace Machine

/-- Run a machine from a state. -/
def run (machine : Machine β σ α) (state : σ) : List β → Reading β α
  | [] =>
      match machine.atEnd state with
      | .complete value => .ok value []
      | .short => .eof
      | .wrong => .bad
  | symbol :: input =>
      match machine.next state symbol with
      | .goOn state' => machine.run state' input
      | .accept value => .ok value input
      | .stop value => .ok value (symbol :: input)
      | .reject => .bad

/-- The machine never accepts because the input ended. -/
def Closed (machine : Machine β σ α) : Prop :=
  ∀ state value, machine.atEnd state ≠ .complete value

/-- The machine takes the last symbol it looked at. -/
def Eager (machine : Machine β σ α) : Prop :=
  ∀ state symbol value, machine.next state symbol ≠ .stop value

variable {machine : Machine β σ α} {state state' : σ} {symbol : β} {input rest : List β}
  {value : α}

theorem run_goOn (h : machine.next state symbol = .goOn state') (input : List β) :
    machine.run state (symbol :: input) = machine.run state' input := by
  rw [run, h]

theorem run_accept (h : machine.next state symbol = .accept value) (input : List β) :
    machine.run state (symbol :: input) = .ok value input := by
  rw [run, h]

theorem run_stop (h : machine.next state symbol = .stop value) (input : List β) :
    machine.run state (symbol :: input) = .ok value (symbol :: input) := by
  rw [run, h]

/-- Symbols that do not change the state can be skipped. -/
theorem run_loop {skipped : List β}
    (h : ∀ symbol ∈ skipped, machine.next state symbol = .goOn state) (input : List β) :
    machine.run state (skipped ++ input) = machine.run state input := by
  induction skipped with
  | nil => rfl
  | cons symbol skipped ih =>
      rw [List.cons_append, run_goOn (h symbol List.mem_cons_self)]
      exact ih fun symbol mem => h symbol (List.mem_cons_of_mem _ mem)

/-- How a run over no symbols succeeded. -/
theorem run_nil_ok (h : machine.run state [] = .ok value rest) :
    machine.atEnd state = .complete value ∧ rest = [] := by
  rw [run] at h
  split at h
  · rename_i hend
    injection h with hvalue hrest
    exact ⟨hvalue ▸ hend, hrest.symm⟩
  · cases h
  · cases h

/-- What the first step of a successful run was. -/
theorem run_cons_ok (h : machine.run state (symbol :: input) = .ok value rest) :
    (∃ state', machine.next state symbol = .goOn state' ∧
      machine.run state' input = .ok value rest) ∨
    (machine.next state symbol = .accept value ∧ rest = input) ∨
    (machine.next state symbol = .stop value ∧ rest = symbol :: input) := by
  rw [run] at h
  cases hnext : machine.next state symbol with
  | goOn state' =>
      rw [hnext] at h
      exact .inl ⟨state', rfl, h⟩
  | accept taken =>
      rw [hnext] at h
      injection h with hvalue hrest
      exact .inr (.inl ⟨hvalue ▸ rfl, hrest.symm⟩)
  | stop left =>
      rw [hnext] at h
      injection h with hvalue hrest
      exact .inr (.inr ⟨hvalue ▸ rfl, hrest.symm⟩)
  | reject =>
      rw [hnext] at h
      cases h

/-- A reading does not depend on what follows the input, unless it was the end of the
input that made it succeed. -/
theorem run_append_of (free : machine.Closed ∨ rest ≠ [])
    (h : machine.run state input = .ok value rest) (more : List β) :
    machine.run state (input ++ more) = .ok value (rest ++ more) := by
  induction input generalizing state with
  | nil =>
      obtain ⟨hend, hrest⟩ := run_nil_ok h
      rcases free with closed | left
      · exact absurd hend (closed _ _)
      · exact absurd hrest left
  | cons symbol input ih =>
      rw [List.cons_append]
      rcases run_cons_ok h with ⟨state', hnext, hrun⟩ | ⟨hnext, hrest⟩ | ⟨hnext, hrest⟩
      · rw [run_goOn hnext]
        exact ih hrun
      · rw [run_accept hnext, hrest]
      · rw [run_stop hnext, hrest]
        rfl

theorem run_append (h : machine.run state input = .ok value rest) (left : rest ≠ [])
    (more : List β) : machine.run state (input ++ more) = .ok value (rest ++ more) :=
  run_append_of (.inr left) h more

theorem run_append_of_closed (closed : machine.Closed)
    (h : machine.run state input = .ok value rest) (more : List β) :
    machine.run state (input ++ more) = .ok value (rest ++ more) :=
  run_append_of (.inl closed) h more

theorem length_run_le (h : machine.run state input = .ok value rest) :
    rest.length ≤ input.length := by
  induction input generalizing state with
  | nil =>
      obtain ⟨-, hrest⟩ := run_nil_ok h
      exact Nat.le_of_eq (congrArg List.length hrest)
  | cons symbol input ih =>
      rw [List.length_cons]
      rcases run_cons_ok h with ⟨state', -, hrun⟩ | ⟨-, hrest⟩ | ⟨-, hrest⟩
      · have := ih hrun
        omega
      · rw [hrest]
        omega
      · exact Nat.le_of_eq (congrArg List.length hrest)

/-- A closed machine that takes what it looks at takes something. -/
theorem length_run_lt (closed : machine.Closed) (eager : machine.Eager)
    (h : machine.run state input = .ok value rest) : rest.length < input.length := by
  cases input with
  | nil => exact absurd (run_nil_ok h).1 (closed _ _)
  | cons symbol input =>
      rw [List.length_cons]
      rcases run_cons_ok h with ⟨state', -, hrun⟩ | ⟨-, hrest⟩ | ⟨hnext, -⟩
      · have := length_run_le hrun
        omega
      · rw [hrest]
        omega
      · exact absurd hnext (eager _ _ _)

end Machine

end Scan
