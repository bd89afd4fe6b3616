import Mathlib.Algebra.BigOperators.Group.List.Basic
import Mathlib.Algebra.BigOperators.Group.Multiset.Basic
import Mathlib.Algebra.Group.Pi.Basic

/-!
# Libdeno.Library.Pool

**Thread pools over a shared memory.** A pool is a memory and a list of threads;
in a step one thread moves, may change the memory and may spawn threads, or the
environment moves the memory and starts threads. The number of threads is not
bounded, so what holds of all of them together is said with *tallies*: the sum of
a thread's contribution over the pool, in any commutative monoid.

* a *census* is the tally of the roles threads play, read by `tally_census`;
* `Step.tally` lifts a law between the memory and a tally from one thread's step to
  the pool's;
* `Step.threads` lifts an invariant of each thread, given that the steps of a thread
  keep the invariant of the others;
* `Step.answered` lifts a law by which some thread answers for what the memory has;
* `Step.getElem?` follows one thread by its place in the list.

Nothing here mentions a particular program.
-/

/-- A memory shared by threads. -/
structure Pool (σ τ : Type*) where
  memory : σ
  threads : List τ

namespace Pool

variable {σ τ : Type*}

/-! ### Tallies -/

section Tally

variable {M : Type*} [AddCommMonoid M] (f : τ → M)

/-- What the threads contribute together. -/
def tally (threads : List τ) : M := (threads.map f).sum

@[simp] theorem tally_nil : tally f [] = 0 := rfl

@[simp] theorem tally_cons (t : τ) (threads : List τ) :
    tally f (t :: threads) = f t + tally f threads := by
  simp [tally]

@[simp] theorem tally_append (first second : List τ) :
    tally f (first ++ second) = tally f first + tally f second := by
  simp [tally]

/-- One thread's contribution apart from the others'. -/
theorem tally_split (before after : List τ) (t : τ) :
    tally f (before ++ t :: after) = f t + tally f (before ++ after) := by
  rw [tally_append, tally_cons, tally_append]
  exact add_left_comm _ _ _

/-- The tally after a step of one thread. -/
theorem tally_step (before after spawned : List τ) (t : τ) :
    tally f (before ++ t :: after ++ spawned) =
      f t + tally f spawned + tally f (before ++ after) := by
  rw [tally_append, tally_split, add_assoc, add_comm (tally f (before ++ after)), ← add_assoc]

end Tally

theorem le_tally {f : τ → ℕ} {threads : List τ} {t : τ} (h : t ∈ threads) :
    f t ≤ tally f threads := by
  obtain ⟨before, after, rfl⟩ := List.append_of_mem h
  rw [tally_split]
  exact Nat.le_add_right _ _

theorem mem_tally {α : Type*} {f : τ → Multiset α} {threads : List τ} {x : α} :
    x ∈ tally f threads ↔ ∃ t ∈ threads, x ∈ f t := by
  induction threads with
  | nil => simp
  | cons t threads ih =>
      rw [tally_cons, Multiset.mem_add, ih]
      simp

/-- A tally of a flag is the number of threads that have it. -/
theorem tally_toNat (p : τ → Bool) (threads : List τ) :
    tally (fun t => (p t).toNat) threads = threads.countP p := by
  induction threads with
  | nil => rfl
  | cons t threads ih =>
      rw [tally_cons, ih, List.countP_cons, add_comm]
      cases p t <;> rfl

/-! ### Censuses -/

section Census

variable {ρ : Type*} [DecidableEq ρ] (role : τ → Option ρ)

/-- A thread's contribution to a census of roles. -/
def census (t : τ) : ρ → ℕ := fun r => if role t = some r then 1 else 0

/-- A census is the numbers of threads that play each role. -/
theorem tally_census (threads : List τ) (r : ρ) :
    tally (census role) threads r = threads.countP (role · = some r) := by
  induction threads with
  | nil => rfl
  | cons t threads ih =>
      rw [tally_cons, Pi.add_apply, ih, List.countP_cons, add_comm]
      simp [census]

end Census

/-! ### Steps -/

section Steps

variable {thread : σ → τ → σ → τ → List τ → Prop} {environment : σ → σ → List τ → Prop}

/-- One thread moves, or the environment does. -/
inductive Step (thread : σ → τ → σ → τ → List τ → Prop) (environment : σ → σ → List τ → Prop) :
    Pool σ τ → Pool σ τ → Prop
  | thread {m m' : σ} {t t' : τ} {spawned : List τ} (before after : List τ) :
      thread m t m' t' spawned →
      Step thread environment { memory := m, threads := before ++ t :: after }
        { memory := m', threads := before ++ t' :: after ++ spawned }
  | environment {m m' : σ} {spawned : List τ} (threads : List τ) :
      environment m m' spawned →
      Step thread environment { memory := m, threads }
        { memory := m', threads := threads ++ spawned }

variable {p p' : Pool σ τ}

/-- A law between the memory and a tally. The rest of the pool enters a thread's
premise as an unknown summand. -/
theorem Step.tally {M : Type*} [AddCommMonoid M] {f : τ → M} {I : σ → M → Prop}
    (own : ∀ {m t m' t' spawned} (rest : M), thread m t m' t' spawned →
      I m (f t + rest) → I m' (f t' + tally f spawned + rest))
    (env : ∀ {m m' spawned} (rest : M), environment m m' spawned →
      I m rest → I m' (rest + tally f spawned))
    (step : Step thread environment p p') (inv : I p.memory (tally f p.threads)) :
    I p'.memory (tally f p'.threads) := by
  cases step with
  | thread before after h =>
      simp only [tally_step, tally_split] at inv ⊢
      exact own _ h inv
  | environment threads h =>
      simp only [tally_append] at inv ⊢
      exact env _ h inv

/-- An invariant of every thread. The moving thread keeps its own and hands one to
each spawned thread; the others' are kept by stability. The premises may use what is
known of the whole pool before the step. -/
theorem Step.threads {K : Pool σ τ → Prop} {P : σ → τ → Prop}
    (own : ∀ {m t m' t' spawned before after}, K ⟨m, before ++ t :: after⟩ →
      thread m t m' t' spawned → P m t → P m' t' ∧ ∀ u ∈ spawned, P m' u)
    (stable : ∀ {m t m' t' spawned before after u}, K ⟨m, before ++ t :: after⟩ →
      u ∈ before ++ after → thread m t m' t' spawned → P m t → P m u → P m' u)
    (env : ∀ {m m' spawned threads}, K ⟨m, threads⟩ → environment m m' spawned →
      (∀ u ∈ threads, P m u → P m' u) ∧ ∀ u ∈ spawned, P m' u)
    (step : Step thread environment p p') (known : K p) (inv : ∀ t ∈ p.threads, P p.memory t) :
    ∀ t ∈ p'.threads, P p'.memory t := by
  cases step with
  | @thread m m' t t' spawned before after h =>
      have ht := inv t (by simp)
      obtain ⟨hown, hspawned⟩ := own known h ht
      intro u hu
      have hcases : u = t' ∨ u ∈ before ++ after ∨ u ∈ spawned := by
        simp only [List.mem_append, List.mem_cons] at hu ⊢
        tauto
      rcases hcases with rfl | hother | hnew
      · exact hown
      · refine stable known hother h ht (inv u ?_)
        simp only [List.mem_append, List.mem_cons] at hother ⊢
        tauto
      · exact hspawned u hnew
  | environment threads h =>
      obtain ⟨hkeep, hspawned⟩ := env known h
      intro u hu
      rcases List.mem_append.mp hu with hold | hnew
      · exact hkeep u hold (inv u hold)
      · exact hspawned u hnew

/-- Whatever `A` asks for has a thread that answers for it, by `Q`: a step that asks for something
new brings the thread along, and no thread that answers for something is lost. -/
theorem Step.answered {K : Pool σ τ → Prop} {α : Type*} {A : σ → α → Prop} {Q : α → τ → Prop}
    (own : ∀ {m t m' t' spawned before after a}, K ⟨m, before ++ t :: after⟩ →
      thread m t m' t' spawned → A m' a → Q a t' ∨ (A m a ∧ ¬ Q a t))
    (env : ∀ {m m' spawned a}, environment m m' spawned → A m' a → A m a)
    (step : Step thread environment p p') (known : K p)
    (inv : ∀ a, A p.memory a → ∃ t ∈ p.threads, Q a t) :
    ∀ a, A p'.memory a → ∃ t ∈ p'.threads, Q a t := by
  intro a ha
  cases step with
  | @thread m m' t t' spawned before after h =>
      rcases own known h ha with hnew | ⟨hold, hnot⟩
      · exact ⟨t', by simp, hnew⟩
      · obtain ⟨u, hu, hq⟩ := inv a hold
        have hother : u ∈ before ++ after := by
          simp only [List.mem_append, List.mem_cons] at hu ⊢
          rcases hu with hu | rfl | hu
          · exact .inl hu
          · exact absurd hq hnot
          · exact .inr hu
        refine ⟨u, ?_, hq⟩
        simp only [List.mem_append, List.mem_cons] at hother ⊢
        tauto
  | environment threads h =>
      obtain ⟨u, hu, hq⟩ := inv a (env h ha)
      exact ⟨u, List.mem_append_left _ hu, hq⟩

/-- A thread keeps its place, and is as it was or has moved. -/
theorem Step.getElem? {i : ℕ} {t : τ} (step : Step thread environment p p')
    (h : p.threads[i]? = some t) :
    ∃ t', p'.threads[i]? = some t' ∧
      (t' = t ∨ ∃ spawned, thread p.memory t p'.memory t' spawned) := by
  cases step with
  | @thread m m' u u' spawned before after hmove =>
      have hlt := (List.getElem?_eq_some_iff.mp h).choose
      rw [List.getElem?_append_left (by simpa using hlt)]
      rcases Nat.lt_trichotomy i before.length with hbefore | rfl | hafter
      · rw [List.getElem?_append_left hbefore] at h ⊢
        exact ⟨t, h, .inl rfl⟩
      · rw [List.getElem?_append_right (Nat.le_refl _), Nat.sub_self] at h ⊢
        obtain rfl := Option.some.inj h
        exact ⟨u', rfl, .inr ⟨spawned, hmove⟩⟩
      · obtain ⟨k, rfl⟩ := Nat.exists_eq_add_of_lt hafter
        rw [List.getElem?_append_right (by omega),
          show before.length + k + 1 - before.length = k + 1 by omega] at h ⊢
        exact ⟨t, h, .inl rfl⟩
  | environment threads hstart =>
      have hlt := (List.getElem?_eq_some_iff.mp h).choose
      exact ⟨t, by rw [List.getElem?_append_left hlt]; exact h, .inl rfl⟩

end Steps

end Pool
