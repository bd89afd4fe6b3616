import Mathlib.Data.List.Count
import Mathlib.Tactic.Common

/-!
# Libdeno.Library.BoundedLoop

**Loops that end whatever they meet.** One pass of a loop takes a state and what the
environment does meanwhile, leaves a trace of events, and goes on or returns. A rank that every
pass that goes on makes smaller bounds the number of passes (`passes_le`), in every endless
environment; what holds of the events of every pass holds of the events of the run.
-/

namespace BoundedLoop

/-- A loop with states `σ`, circumstances `τ`, events `ε` and results `ρ`. -/
structure Loop (σ τ ε ρ : Type*) where
  pass : σ → τ → List ε × (σ ⊕ ρ)
  rank : σ → ℕ
  decreases : ∀ {s t events s'}, pass s t = (events, .inl s') → rank s' < rank s

/-- What a run comes to. -/
structure Outcome (ε ρ : Type*) where
  events : List ε
  result : ρ
  passes : ℕ

namespace Loop

variable {σ τ ε ρ : Type*} (loop : Loop σ τ ε ρ) (env : ℕ → τ)

/-- The run from a state, where the environment has got to a position. -/
def run (i : ℕ) (s : σ) : Outcome ε ρ :=
  match h : loop.pass s (env i) with
  | (events, .inr result) => ⟨events, result, 1⟩
  | (events, .inl s') =>
      let rest := run (i + 1) s'
      ⟨events ++ rest.events, rest.result, rest.passes + 1⟩
termination_by loop.rank s
decreasing_by exact loop.decreases h

variable {loop env}

theorem run_of_return {i : ℕ} {s : σ} {events : List ε} {result : ρ}
    (h : loop.pass s (env i) = (events, .inr result)) :
    loop.run env i s = ⟨events, result, 1⟩ := by
  rw [run]
  split
  · rename_i events' result' heq
    rw [h, Prod.mk.injEq, Sum.inr.injEq] at heq
    rw [heq.1, heq.2]
  · rename_i heq
    rw [h, Prod.mk.injEq] at heq
    cases heq.2

theorem run_of_again {i : ℕ} {s s' : σ} {events : List ε}
    (h : loop.pass s (env i) = (events, .inl s')) :
    loop.run env i s = ⟨events ++ (loop.run env (i + 1) s').events,
      (loop.run env (i + 1) s').result, (loop.run env (i + 1) s').passes + 1⟩ := by
  rw [run]
  split
  · rename_i heq
    rw [h, Prod.mk.injEq] at heq
    cases heq.2
  · rename_i events' next heq
    rw [h, Prod.mk.injEq, Sum.inl.injEq] at heq
    rw [heq.1, heq.2]

/-- What a pass that goes on passes back holds of every run. -/
theorem run_induction (loop : Loop σ τ ε ρ) (env : ℕ → τ) {P : ℕ → σ → Prop}
    (back : ∀ i s, (∀ events s', loop.pass s (env i) = (events, .inl s') → P (i + 1) s') → P i s)
    (i : ℕ) (s : σ) : P i s := by
  induction hrank : loop.rank s using Nat.strongRecOn generalizing i s with
  | ind n ih =>
      refine back i s fun events s' h => ih _ ?_ (i + 1) s' rfl
      rw [← hrank]
      exact loop.decreases h

/-- **The rank bounds the passes.** -/
theorem passes_le (i : ℕ) (s : σ) : (loop.run env i s).passes ≤ loop.rank s + 1 := by
  induction i, s using loop.run_induction env with
  | back i s ih =>
      rcases h : loop.pass s (env i) with ⟨events, s' | result⟩
      · rw [run_of_again h]
        have hrank := loop.decreases h
        have hrest := ih events s' h
        show (loop.run env (i + 1) s').passes + 1 ≤ loop.rank s + 1
        omega
      · rw [run_of_return h]
        exact Nat.le_add_left 1 _

/-- What holds of the events of every pass holds of the events of the run. -/
theorem forall_events {P : ε → Prop} (h : ∀ s t, ∀ event ∈ (loop.pass s t).1, P event) (i : ℕ)
    (s : σ) : ∀ event ∈ (loop.run env i s).events, P event := by
  induction i, s using loop.run_induction env with
  | back i s ih =>
      have hpass := h s (env i)
      rcases hnext : loop.pass s (env i) with ⟨events, s' | result⟩
      · rw [hnext] at hpass
        rw [run_of_again hnext]
        intro event mem
        exact (List.mem_append.mp mem).elim (hpass event) (ih events s' hnext event)
      · rw [hnext] at hpass
        rw [run_of_return hnext]
        exact hpass

/-- Events of which a pass has at most one are as many as passes, at most. -/
theorem countP_le_passes {p : ε → Bool} (h : ∀ s t, (loop.pass s t).1.countP p ≤ 1) (i : ℕ)
    (s : σ) : (loop.run env i s).events.countP p ≤ (loop.run env i s).passes := by
  induction i, s using loop.run_induction env with
  | back i s ih =>
      have hpass := h s (env i)
      rcases hnext : loop.pass s (env i) with ⟨events, s' | result⟩
      · rw [hnext] at hpass
        rw [run_of_again hnext, List.countP_append]
        have hrest := ih events s' hnext
        show _ + _ ≤ _ + 1
        have hone : events.countP p ≤ 1 := hpass
        omega
      · rw [hnext] at hpass
        rw [run_of_return hnext]
        exact hpass

/-- So the rank bounds them, too. -/
theorem countP_le_rank {p : ε → Bool} (h : ∀ s t, (loop.pass s t).1.countP p ≤ 1) (i : ℕ)
    (s : σ) : (loop.run env i s).events.countP p ≤ loop.rank s + 1 :=
  Nat.le_trans (countP_le_passes h i s) (passes_le i s)

end Loop

end BoundedLoop
