import Mathlib.Tactic.Common

/-!
# Libdeno.Library.Hoare

**Programs that call a system which may refuse, and their triples.** A program changes a state
and returns, or it gives up with the whole process (`Program`). What a call of the system
answers is a value like any other, so that `attempt` can be the early return of a scope: the
error is passed on once the locals of the scope are dropped.

`Ensures E P m Q` is the triple: from every state with `P` the program returns in one with `Q`,
or gives up for a reason with `E`. There is one rule for each way programs are put together
here; a client states one triple for each of its calls and assembles the rest.

Nothing here mentions a particular program.
-/

namespace Hoare

variable {ε σ α β κ : Type}

/-- A program over the states `σ` that may give up for a reason `ε`. -/
abbrev Program (ε σ α : Type) := StateT σ (Except ε) α

/-- `call?`, in a scope whose locals are dropped by `drops` where it returns early. -/
def attempt (call : Program ε σ (Except κ α)) (drops : Program ε σ Unit)
    (next : α → Program ε σ (Except κ β)) : Program ε σ (Except κ β) := do
  match ← call with
  | .error error => do drops; return .error error
  | .ok value => next value

/-- From every state with `P`, `m` returns in one with `Q` or gives up with an `E`. -/
def Ensures (E : ε → Prop) (P : σ → Prop) (m : Program ε σ α) (Q : α → σ → Prop) : Prop :=
  ∀ s, P s → match m s with
    | .ok (a, s') => Q a s'
    | .error e => E e

namespace Ensures

variable {E : ε → Prop} {P P' : σ → Prop} {Q Q' : α → σ → Prop} {m : Program ε σ α}

theorem pure {a : α} (h : ∀ s, P s → Q a s) : Ensures E P (pure a) Q :=
  fun s hs => h s hs

theorem throw {e : ε} (h : E e) : Ensures E P (throw e : Program ε σ α) Q :=
  fun _ _ => h

theorem get {Q : σ → σ → Prop} (h : ∀ s, P s → Q s s) : Ensures E P get Q :=
  fun s hs => h s hs

theorem set {s' : σ} {Q : PUnit → σ → Prop} (h : ∀ s, P s → Q ⟨⟩ s') :
    Ensures E P (set s') Q :=
  fun s hs => h s hs

theorem modify {f : σ → σ} {Q : Unit → σ → Prop} (h : ∀ s, P s → Q () (f s)) :
    Ensures E P (modify f) Q :=
  fun s hs => h s hs

/-- The sequencing rule. -/
theorem bind {next : α → Program ε σ β} {R : β → σ → Prop} (first : Ensures E P m Q)
    (rest : ∀ a, Ensures E (Q a) (next a) R) : Ensures E P (m >>= next) R := by
  intro s hs
  have hfirst := first s hs
  change match (StateT.bind m next) s with | .ok (b, s') => R b s' | .error e => E e
  simp only [StateT.bind, Bind.bind, Except.bind]
  cases hm : m s with
  | error e =>
      rw [hm] at hfirst
      exact hfirst
  | ok out =>
      obtain ⟨a, s'⟩ := out
      rw [hm] at hfirst
      exact rest a s' hfirst

/-- The rule of consequence. -/
theorem conseq (h : Ensures E P m Q) (before : ∀ s, P' s → P s)
    (after : ∀ a s, Q a s → Q' a s) : Ensures E P' m Q' := by
  intro s hs
  have hrun := h s (before s hs)
  cases hm : m s with
  | error e =>
      rw [hm] at hrun
      exact hrun
  | ok out =>
      rw [hm] at hrun
      exact after _ _ hrun

theorem weaken (h : Ensures E P m Q) (after : ∀ a s, Q a s → Q' a s) : Ensures E P m Q' :=
  h.conseq (fun _ hs => hs) after

/-- Two triples of one program are one. -/
theorem and (h : Ensures E P m Q) (h' : Ensures E P' m Q') :
    Ensures E (fun s => P s ∧ P' s) m fun a s => Q a s ∧ Q' a s := by
  intro s hs
  have hrun := h s hs.1
  have hrun' := h' s hs.2
  cases hm : m s with
  | error e =>
      rw [hm] at hrun
      exact hrun
  | ok out =>
      rw [hm] at hrun hrun'
      exact ⟨hrun, hrun'⟩

/-- A precondition that fixes logical variables. -/
theorem exists_pre {ι : Sort*} {P : ι → σ → Prop} (h : ∀ i, Ensures E (P i) m Q) :
    Ensures E (fun s => ∃ i, P i s) m Q :=
  fun s ⟨i, hs⟩ => h i s hs

/-- A precondition with a part that says nothing of the state. -/
theorem pure_pre {p : Prop} (h : p → Ensures E P m Q) : Ensures E (fun s => p ∧ P s) m Q :=
  fun s hs => h hs.1 s hs.2

theorem ite {c : Prop} [Decidable c] {m' : Program ε σ α} (pos : c → Ensures E P m Q)
    (neg : ¬ c → Ensures E P m' Q) : Ensures E P (if c then m else m') Q := by
  split
  · exact pos ‹_›
  · exact neg ‹_›

/-- The early return: a refused call meets the postcondition once the locals are dropped. -/
theorem attempt {call : Program ε σ (Except κ α)} {drops : Program ε σ Unit}
    {next : α → Program ε σ (Except κ β)} {C : Except κ α → σ → Prop}
    {R : Except κ β → σ → Prop} (hcall : Ensures E P call C)
    (hdrops : ∀ e, Ensures E (C (.error e)) drops fun _ => R (.error e))
    (hnext : ∀ a, Ensures E (C (.ok a)) (next a) R) :
    Ensures E P (attempt call drops next) R := by
  refine hcall.bind fun answer => ?_
  cases answer with
  | error e => exact (hdrops e).bind fun _ => .pure fun _ h => h
  | ok a => exact hnext a

end Ensures

end Hoare
