import Libdeno.Library.Pool
import Libdeno.Library.Transition

/-!
# Libdeno.Library.Latch

**A value that is set once, and those who wait for it.** Setters store the value and then call
`notify_waiters`; a waiter begins to listen, looks at the value, and sleeps until the notifier
was called since it began to listen. Any number of setters and waiters come at any time, every
access is a step of its own, and a waiter may leave.

No wakeup is lost: once the value is there and its setter has called the notifier, nobody who
sleeps has missed the call (`no_lost_wakeup`), and whoever waits can go on (`can_move`). How often
one thread of a pool has moved is counted by `Pool.Turns`, and another pool is shown to be a latch
by `Pool.Looks`.

Nothing here mentions a particular program.
-/

namespace Pool

variable {σ τ : Type*} {thread : σ → τ → σ → τ → List τ → Prop}
  {environment : σ → σ → List τ → Prop}

/-- A run in which the thread at place `i` moves `k` times. -/
inductive Turns (thread : σ → τ → σ → τ → List τ → Prop) (environment : σ → σ → List τ → Prop)
    (i : ℕ) : Pool σ τ → Pool σ τ → ℕ → Prop
  | refl {p : Pool σ τ} : Turns thread environment i p p 0
  | own {p : Pool σ τ} {m m' : σ} {t t' : τ} {before after spawned : List τ} {k : ℕ} :
      Turns thread environment i p ⟨m, before ++ t :: after⟩ k → before.length = i →
      thread m t m' t' spawned →
      Turns thread environment i p ⟨m', before ++ t' :: after ++ spawned⟩ (k + 1)
  | other {p : Pool σ τ} {m m' : σ} {t t' : τ} {before after spawned : List τ} {k : ℕ} :
      Turns thread environment i p ⟨m, before ++ t :: after⟩ k → before.length ≠ i →
      thread m t m' t' spawned →
      Turns thread environment i p ⟨m', before ++ t' :: after ++ spawned⟩ k
  | environment {p : Pool σ τ} {m m' : σ} {threads spawned : List τ} {k : ℕ} :
      Turns thread environment i p ⟨m, threads⟩ k → environment m m' spawned →
      Turns thread environment i p ⟨m', threads ++ spawned⟩ k

theorem Turns.run {i k : ℕ} {p p' : Pool σ τ} (turns : Turns thread environment i p p' k) :
    Transition.Run (Step thread environment) p p' := by
  induction turns with
  | refl => exact .refl
  | own before hi move ih => exact ih.tail (.thread _ _ move)
  | other before hi move ih => exact ih.tail (.thread _ _ move)
  | environment before arrives ih => exact ih.tail (.environment _ arrives)

/-- What one thread's moves keep, however many they are; `K` is kept by every step. -/
theorem Turns.follow {K : σ → Prop} {R : ℕ → τ → Prop}
    (keep : ∀ {p p' : Pool σ τ}, Step thread environment p p' → K p.memory → K p'.memory)
    (own : ∀ {m t m' t' spawned k}, K m → R k t → thread m t m' t' spawned → R (k + 1) t')
    {i k : ℕ} {p p' : Pool σ τ} (turns : Turns thread environment i p p' k) (known : K p.memory)
    {t : τ} (ht : p.threads[i]? = some t) (start : R 0 t) :
    ∃ t', p'.threads[i]? = some t' ∧ R k t' := by
  induction turns with
  | refl => exact ⟨t, ht, start⟩
  | @own m m' u u' before after spawned k earlier hi move ih =>
      obtain ⟨u₁, hu₁, hkept⟩ := ih
      obtain rfl : u = u₁ := by simpa [← hi] using hu₁
      have hK := Transition.Run.invariant (P := fun q => K q.memory)
        (fun _ _ hK hstep => keep hstep hK) earlier.run known
      exact ⟨u', by simp [← hi], own hK hkept move⟩
  | @other m m' u u' before after spawned k earlier hi move ih =>
      obtain ⟨t', ht', hkept⟩ := ih
      refine ⟨t', ?_, hkept⟩
      have hlt := (List.getElem?_eq_some_iff.mp ht').1
      rw [List.getElem?_append_left (by simpa using hlt)]
      rcases Nat.lt_or_gt_of_ne hi with hbefore | hafter
      · obtain ⟨j, rfl⟩ := Nat.exists_eq_add_of_lt hbefore
        rw [List.getElem?_append_right (by omega),
          show before.length + j + 1 - before.length = j + 1 by omega] at ht' ⊢
        exact ht'
      · rw [List.getElem?_append_left hafter] at ht' ⊢
        exact ht'
  | @environment m m' threads spawned k earlier arrives ih =>
      obtain ⟨t', ht', hkept⟩ := ih
      have hlt := (List.getElem?_eq_some_iff.mp ht').1
      exact ⟨t', (List.getElem?_append_left hlt).trans ht', hkept⟩

/-! ### One pool seen as another -/

section Map

variable {σ' τ' : Type*} {thread' : σ' → τ' → σ' → τ' → List τ' → Prop}
  {environment' : σ' → σ' → List τ' → Prop} {f : σ → σ'} {g : τ → τ'}

/-- The pool as it looks through `f` and `g`. -/
def map (f : σ → σ') (g : τ → τ') (p : Pool σ τ) : Pool σ' τ' :=
  ⟨f p.memory, p.threads.map g⟩

/-- Each move of a thread is one of what it looks like, or changes nothing of it. -/
structure Looks (thread : σ → τ → σ → τ → List τ → Prop) (environment : σ → σ → List τ → Prop)
    (thread' : σ' → τ' → σ' → τ' → List τ' → Prop) (environment' : σ' → σ' → List τ' → Prop)
    (f : σ → σ') (g : τ → τ') : Prop where
  own : ∀ m t m' t' spawned, thread m t m' t' spawned →
    thread' (f m) (g t) (f m') (g t') (spawned.map g) ∨
      f m' = f m ∧ g t' = g t ∧ spawned = []
  env : ∀ m m' spawned, environment m m' spawned →
    environment' (f m) (f m') (spawned.map g)

theorem Looks.step (looks : Looks thread environment thread' environment' f g) {p p' : Pool σ τ}
    (step : Step thread environment p p') :
    Step thread' environment' (p.map f g) (p'.map f g) ∨ p'.map f g = p.map f g := by
  cases step with
  | thread before after move =>
      rcases looks.own _ _ _ _ _ move with hmove | ⟨hm, ht, rfl⟩
      · refine .inl ?_
        simpa [Pool.map] using Step.thread (before.map g) (after.map g) hmove
      · exact .inr (by simp [Pool.map, hm, ht])
  | environment threads arrives =>
      refine .inl ?_
      simpa [Pool.map] using Step.environment (threads.map g) (looks.env _ _ _ arrives)

/-- What is reachable looks like something reachable. -/
theorem Looks.reachable (looks : Looks thread environment thread' environment' f g)
    {init : Pool σ τ → Prop} {init' : Pool σ' τ' → Prop}
    (start : ∀ p, init p → init' (p.map f g)) {p : Pool σ τ}
    (h : Transition.Reachable init (Step thread environment) p) :
    Transition.Reachable init' (Step thread' environment') (p.map f g) := by
  refine h.invariant (P := fun p =>
    Transition.Reachable init' (Step thread' environment') (p.map f g))
    (fun p hp => .start (start p hp)) fun p p' hp step => ?_
  rcases looks.step step with hstep | hsame
  · exact hp.snoc hstep
  · rw [hsame]
    exact hp

end Map

end Pool

namespace Latch

open Transition

variable {α : Type*}

/-- The value, and how often `notify_waiters` was called. -/
structure Memory (α : Type*) where
  value : Option α
  calls : ℕ

/-- Where a setter or a waiter stands. -/
inductive Party (α : Type*)
  /-- A setter that has not looked at the value. -/
  | setting (value : α)
  /-- It is going to call the notifier. -/
  | stored
  | done
  /-- A waiter at the beginning of its loop. -/
  | top
  /-- It listens since the notifier had been called so often. -/
  | listening (since : ℕ)
  /-- It found no value. -/
  | asleep (since : ℕ)
  | returned (value : α)
  /-- The future was dropped. -/
  | gone

/-- It waits. -/
def Party.waits : Party α → Prop
  | .top | .listening _ | .asleep _ => True
  | _ => False

/-- A step of one party. -/
inductive Move : Memory α → Party α → Memory α → Party α → List (Party α) → Prop
  | store {m : Memory α} {value : α} : m.value = none →
      Move m (.setting value) { m with value := some value } .stored []
  /-- The value is there, and the notifier is called all the same. -/
  | again {m : Memory α} {value value' : α} : m.value = some value' →
      Move m (.setting value) m .stored []
  /-- The value is there, and the setter does nothing. -/
  | late {m : Memory α} {value value' : α} : m.value = some value' →
      Move m (.setting value) m .done []
  | notify {m : Memory α} : Move m .stored { m with calls := m.calls + 1 } .done []
  /-- A waiter that looks before it listens. -/
  | early {m : Memory α} {value : α} : m.value = some value →
      Move m .top m (.returned value) []
  | listen {m : Memory α} : Move m .top m (.listening m.calls) []
  | found {m : Memory α} {since : ℕ} {value : α} : m.value = some value →
      Move m (.listening since) m (.returned value) []
  | sleep {m : Memory α} {since : ℕ} : m.value = none →
      Move m (.listening since) m (.asleep since) []
  | wake {m : Memory α} {since : ℕ} : m.calls ≠ since → Move m (.asleep since) m .top []
  | leave {m : Memory α} {party : Party α} : party.waits → Move m party m .gone []

/-- Setters and waiters come at any time. -/
inductive Arrives : Memory α → Memory α → List (Party α) → Prop
  | setter (m : Memory α) (value : α) : Arrives m m [.setting value]
  | waiter (m : Memory α) : Arrives m m [.top]

abbrev Step : Pool (Memory α) (Party α) → Pool (Memory α) (Party α) → Prop :=
  Pool.Step Move Arrives

/-- Nothing was set, and nobody is there. -/
def init (p : Pool (Memory α) (Party α)) : Prop := p = ⟨⟨none, 0⟩, []⟩

variable {p p' : Pool (Memory α) (Party α)}

/-- The value is set once. -/
theorem Move.value {m m' : Memory α} {t t' : Party α} {spawned : List (Party α)}
    (move : Move m t m' t' spawned) {value : α} (h : m.value = some value) :
    m'.value = some value := by
  cases move with
  | store hnone => rw [h] at hnone; cases hnone
  | _ => exact h

theorem Step.value (step : Step p p') {value : α} (h : p.memory.value = some value) :
    p'.memory.value = some value := by
  cases step with
  | thread before after move => exact move.value h
  | environment threads arrives => cases arrives <;> exact h

theorem Run.value (run : Run Step p p') {value : α} (h : p.memory.value = some value) :
    p'.memory.value = some value :=
  Run.invariant (P := fun q => q.memory.value = some value)
    (fun _ _ h step => Step.value step h) run h

/-- What a waiter knows. -/
def Knows (m : Memory α) : Party α → Prop
  | .listening since | .asleep since => since ≤ m.calls
  | .returned value => m.value = some value
  | _ => True

theorem Knows.move {m m' : Memory α} {t t' : Party α} {spawned : List (Party α)}
    (move : Move m t m' t' spawned) {u : Party α} (h : Knows m u) : Knows m' u := by
  have hcalls : m.calls ≤ m'.calls := by cases move <;> simp
  cases u with
  | listening since | asleep since => exact le_trans h hcalls
  | returned value => exact move.value h
  | _ => trivial

theorem Step.knows (step : Step p p') (h : ∀ t ∈ p.threads, Knows p.memory t) :
    ∀ t ∈ p'.threads, Knows p'.memory t := by
  refine Pool.Step.threads (K := fun _ => True) (fun _ move ht => ?_)
    (fun _ _ move _ hu => hu.move move) (fun _ arrives => ?_) step trivial h
  · cases move with
    | early hvalue | found hvalue => exact ⟨hvalue, nofun⟩
    | listen => exact ⟨le_rfl, nofun⟩
    | sleep hnone => exact ⟨ht, nofun⟩
    | _ => exact ⟨trivial, nofun⟩
  · cases arrives with
    | setter | waiter =>
        exact ⟨fun u _ hu => hu, fun u hu => by rw [List.mem_singleton.mp hu]; trivial⟩

/-- Whoever sleeps will still be woken. -/
def Covered (p : Pool (Memory α) (Party α)) : Prop :=
  p.memory.value = none ∨ .stored ∈ p.threads ∨
    ∀ since, .asleep since ∈ p.threads → since < p.memory.calls

theorem Step.covered (step : Step p p') (knows : ∀ t ∈ p.threads, Knows p.memory t)
    (h : Covered p) : Covered p' := by
  cases step with
  | environment threads arrives =>
      rcases h with hnone | hstored | hasleep
      · exact .inl (by cases arrives <;> exact hnone)
      · exact .inr (.inl (List.mem_append_left _ hstored))
      · refine .inr (.inr fun since hmem => ?_)
        cases arrives with
        | setter | waiter => exact hasleep since (by simpa using hmem)
  | @thread m m' t t' spawned before after move =>
      have hothers : ∀ {u}, u ≠ t → u ∈ before ++ t :: after → u ∈ before ++ t' :: after := by
        intro u hne hu
        simp only [List.mem_append, List.mem_cons, hne, false_or] at hu ⊢
        exact hu.elim .inl fun h => .inr (.inr h)
      -- the parties that do not touch the memory and do not fall asleep
      have hquiet : m' = m → t ≠ .stored → (∀ since, t' ≠ .asleep since) → spawned = [] →
          Covered ⟨m', before ++ t' :: after ++ spawned⟩ := by
        rintro rfl hstored hasleep' rfl
        rw [List.append_nil]
        rcases h with hnone | hpending | hasleep
        · exact .inl hnone
        · exact .inr (.inl (hothers hstored.symm hpending))
        · refine .inr (.inr fun since hmem => hasleep since ?_)
          simp only [List.mem_append, List.mem_cons, (hasleep' since).symm, false_or] at hmem ⊢
          exact hmem.elim .inl fun h => .inr (.inr h)
      cases move with
      | store hnone => exact .inr (.inl (by simp))
      | again hvalue => exact .inr (.inl (by simp))
      | notify =>
          refine .inr (.inr fun since hmem => ?_)
          have hmem' : .asleep since ∈ before ++ .stored :: after := by simpa using hmem
          exact Nat.lt_succ_of_le (knows _ hmem')
      | sleep hnone => exact .inl hnone
      | leave hwaits =>
          refine hquiet rfl (fun heq => ?_) nofun rfl
          subst heq
          exact hwaits
      | _ => exact hquiet rfl nofun nofun rfl

/-- The invariants of a reachable pool. -/
theorem reachable_covered (h : Reachable init Step p) :
    (∀ t ∈ p.threads, Knows p.memory t) ∧ Covered p := by
  refine h.invariant (P := fun q => (∀ t ∈ q.threads, Knows q.memory t) ∧ Covered q)
    (fun s hs => ?_) fun s t hs step => ⟨Step.knows step hs.1, Step.covered step hs.1 hs.2⟩
  subst hs
  exact ⟨nofun, .inl rfl⟩

/-- The value is there and was announced. -/
def Announced (p : Pool (Memory α) (Party α)) (value : α) : Prop :=
  p.memory.value = some value ∧ .stored ∉ p.threads

/-- Nobody who sleeps has missed the announcement. -/
theorem no_lost_wakeup (h : Reachable init Step p) {value : α} (announced : Announced p value)
    {since : ℕ} (asleep : .asleep since ∈ p.threads) : since < p.memory.calls := by
  rcases (reachable_covered h).2 with hnone | hstored | hasleep
  · rw [announced.1] at hnone
    cases hnone
  · exact absurd hstored announced.2
  · exact hasleep since asleep

/-- Whoever waits can go on, and does not have to leave. -/
theorem can_move (h : Reachable init Step p) {value : α} (announced : Announced p value)
    {t : Party α} (ht : t ∈ p.threads) (waits : t.waits) :
    ∃ t', t' ≠ .gone ∧ Move p.memory t p.memory t' [] := by
  cases t with
  | top => exact ⟨.returned value, nofun, .early announced.1⟩
  | listening since => exact ⟨.returned value, nofun, .found announced.1⟩
  | asleep since =>
      exact ⟨.top, nofun, .wake (no_lost_wakeup h announced ht).ne'⟩
  | _ => exact waits.elim

end Latch
