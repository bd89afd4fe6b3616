import Mathlib.Logic.Relation

/-!
# Libdeno.Library.Transition

**Transition systems and their invariants.** A system is a step relation on an
arbitrary state type; a *run* is its reflexive-transitive closure
(`Relation.ReflTransGen`, from Mathlib). This module packages the two inductions
every safety proof needs, so that a client only ever proves facts about single
steps:

* `Run.invariant` — what every step preserves, every run preserves;
* `Reachable.invariant` — what holds initially and every step preserves holds of
  every reachable state, and `Reachable.invariant_of` is the same rule when the
  step case may use an invariant that is already known;
* `Run.monotone` — a reflexive, transitive relation that every step respects
  relates the two ends of every run.

Nothing here mentions a particular program.
-/

namespace Transition

variable {σ : Type*} {step : σ → σ → Prop}

/-- `Run step s t`: finitely many steps lead from `s` to `t`. -/
abbrev Run (step : σ → σ → Prop) : σ → σ → Prop := Relation.ReflTransGen step

/-- A state some initial state can run to. -/
def Reachable (init : σ → Prop) (step : σ → σ → Prop) (s : σ) : Prop :=
  ∃ s₀, init s₀ ∧ Run step s₀ s

/-- A predicate every step preserves is preserved by runs. -/
theorem Run.invariant {P : σ → Prop} (preserve : ∀ s t, P s → step s t → P t)
    {s t : σ} (run : Run step s t) (start : P s) : P t := by
  induction run with
  | refl => exact start
  | tail _ last ih => exact preserve _ _ ih last

/-- A preorder every step respects relates the ends of a run, here under an
invariant the steps may rely on. -/
theorem Run.monotone {P : σ → Prop} {R : σ → σ → Prop}
    (refl : ∀ s, R s s) (trans : ∀ {s t u}, R s t → R t u → R s u)
    (preserve : ∀ s t, P s → step s t → P t) (respect : ∀ s t, P s → step s t → R s t)
    {s t : σ} (run : Run step s t) (start : P s) : R s t := by
  induction run with
  | refl => exact refl s
  | tail before last ih =>
      have mid := Run.invariant preserve before start
      exact trans ih (respect _ _ mid last)

variable {init : σ → Prop}

namespace Reachable

theorem start {s : σ} (h : init s) : Reachable init step s :=
  ⟨s, h, .refl⟩

theorem snoc {s t : σ} (h : Reachable init step s) (last : step s t) :
    Reachable init step t := by
  obtain ⟨s₀, h₀, run⟩ := h
  exact ⟨s₀, h₀, run.tail last⟩

theorem run {s t : σ} (h : Reachable init step s) (run : Run step s t) :
    Reachable init step t := by
  obtain ⟨s₀, h₀, first⟩ := h
  exact ⟨s₀, h₀, first.trans run⟩

/-- The invariant rule. -/
theorem invariant {P : σ → Prop} (start : ∀ s, init s → P s)
    (preserve : ∀ s t, P s → step s t → P t) {s : σ}
    (h : Reachable init step s) : P s := by
  obtain ⟨s₀, h₀, run⟩ := h
  exact Run.invariant preserve run (start s₀ h₀)

/-- The invariant rule relative to an invariant already established. -/
theorem invariant_of {I P : σ → Prop} (known : ∀ s, Reachable init step s → I s)
    (start : ∀ s, init s → P s)
    (preserve : ∀ s t, I s → P s → step s t → P t) {s : σ}
    (h : Reachable init step s) : P s := by
  obtain ⟨s₀, h₀, run⟩ := h
  induction run with
  | refl => exact start s₀ h₀
  | tail before last ih => exact preserve _ _ (known _ ⟨s₀, h₀, before⟩) ih last

end Reachable

end Transition
