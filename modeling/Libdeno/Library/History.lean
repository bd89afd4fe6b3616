import Mathlib.Tactic.Common

/-!
# Libdeno.Library.History

**Reading what changes while it is read.** A history says what every question is answered at
every time. A pass over the questions sees each answer at some time of the pass, so what it
saw need not have been the case at any one time. Where no answer ever returns, two passes
that saw the same answer enclose a time in which the answer was always this one, and what
a pass in that time saw is what was the case at each of its times.
-/

namespace History

variable {Q : Type} {A : Q → Type}

/-- What a pass between two times may have seen. -/
def Seen (history : Nat → (q : Q) → A q) (start stop : Nat) (view : (q : Q) → A q) : Prop :=
  ∀ q, ∃ t, start ≤ t ∧ t ≤ stop ∧ view q = history t q

/-- No answer to `q` returns once it has changed. -/
def NoReturn (history : Nat → (q : Q) → A q) (start stop : Nat) (q : Q) : Prop :=
  ∀ t t' t'', start ≤ t → t ≤ t' → t' ≤ t'' → t'' ≤ stop → history t q = history t'' q →
    history t' q = history t q

variable {history : Nat → (q : Q) → A q} {start stop first last : Nat} {q : Q}
  {view view' : (q : Q) → A q}

/-- A pass that takes longer may see the same. -/
theorem Seen.mono (h : Seen history first last view) (hstart : start ≤ first)
    (hstop : last ≤ stop) : Seen history start stop view := by
  intro q
  obtain ⟨t, hfirst, hlast, heq⟩ := h q
  exact ⟨t, by omega, by omega, heq⟩

/-- Everything was as one pass saw it until another pass saw it again. -/
theorem NoReturn.between (noReturn : NoReturn history start stop q)
    (h : Seen history start first view) (h' : Seen history last stop view')
    (same : view q = view' q) {t : Nat} (hfirst : first ≤ t) (hlast : t ≤ last) :
    history t q = view q := by
  obtain ⟨s, hs, hs', hview⟩ := h q
  obtain ⟨s', hs'', hs''', hview'⟩ := h' q
  rw [hview]
  refine noReturn s t s' hs (by omega) (by omega) hs''' ?_
  rw [← hview, ← hview', same]

/-- What a pass saw while nothing changed. -/
theorem Seen.eq_of_constant (h : Seen history first last view) {answer : A q}
    (constant : ∀ t, first ≤ t → t ≤ last → history t q = answer) : view q = answer := by
  obtain ⟨t, hfirst, hlast, hview⟩ := h q
  rw [hview, constant t hfirst hlast]

end History
