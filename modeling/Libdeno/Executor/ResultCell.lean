import Libdeno.Executor.Result
import Libdeno.Library.Latch

/-!
# Libdeno.Executor.ResultCell

The cell an execution's result is published in, and the futures of the handles that wait for it
(`ResultCell`). Any number of threads publish and wait, in any order: `publish` holds the lock
while it looks, stores and calls the notifier, `wait` begins to listen before it looks, and takes
the lock only to look.

The cell is a latch (`resultCell_latch`). Every result a handle returns is the first that was
published, and once its publisher has called the notifier, a waiting future can always go on when
the lock is free, and returns after at most three steps of its own (`result_waits_end`).
-/

namespace Libdeno.Executor.ResultCell

open Transition

/-- What is published. -/
abbrev Completion := Except ExecutionFailure ExecutionResult

/-- The cell: its result, the calls of `notify_waiters`, and whether the lock is held. -/
structure Cell where
  completion : Option Completion
  calls : Nat
  locked : Bool

/-- Where a thread stands in `publish`, or a future in `wait`. -/
inductive Thread
  | locking (result : Completion)
  | holding (result : Completion)
  /-- It has stored its result and holds the lock. -/
  | storing
  | unlocking
  | published
  /-- The beginning of the loop of `wait`. -/
  | top
  | listening (since : Nat)
  | asleep (since : Nat)
  | returned (result : Completion)
  | detached

/-- A step of `publish` or `wait`; a future is dropped at its `await`, or before its first poll. -/
inductive Move : Cell → Thread → Cell → Thread → List Thread → Prop
  | lock {m : Cell} {result : Completion} : m.locked = false →
      Move m (.locking result) { m with locked := true } (.holding result) []
  | store {m : Cell} {result : Completion} : m.completion = none →
      Move m (.holding result) { m with completion := some result } .storing []
  | keep {m : Cell} {result first : Completion} : m.completion = some first →
      Move m (.holding result) m .unlocking []
  | notify {m : Cell} : Move m .storing { m with calls := m.calls + 1 } .unlocking []
  | unlock {m : Cell} : Move m .unlocking { m with locked := false } .published []
  | listen {m : Cell} : Move m .top m (.listening m.calls) []
  | found {m : Cell} {since : Nat} {result : Completion} : m.locked = false →
      m.completion = some result → Move m (.listening since) m (.returned result) []
  | sleep {m : Cell} {since : Nat} : m.locked = false → m.completion = none →
      Move m (.listening since) m (.asleep since) []
  | wake {m : Cell} {since : Nat} : m.calls ≠ since → Move m (.asleep since) m .top []
  | drop {m : Cell} {since : Nat} : Move m (.asleep since) m .detached []
  | detach {m : Cell} : Move m .top m .detached []

/-- Results are published and waited for at any time. -/
inductive Arrives : Cell → Cell → List Thread → Prop
  | publish (m : Cell) (result : Completion) : Arrives m m [.locking result]
  | wait (m : Cell) : Arrives m m [.top]

abbrev Step : Pool Cell Thread → Pool Cell Thread → Prop := Pool.Step Move Arrives

/-- `ResultCell::new`. -/
def init (p : Pool Cell Thread) : Prop := p = ⟨⟨none, 0, false⟩, []⟩

/-! ### The cell is a latch -/

/-- The latch of the cell. -/
def Cell.latch (m : Cell) : Latch.Memory Completion := ⟨m.completion, m.calls⟩

/-- The party a thread is. -/
def Thread.party : Thread → Latch.Party Completion
  | .locking result | .holding result => .setting result
  | .storing => .stored
  | .unlocking | .published => .done
  | .top => .top
  | .listening since => .listening since
  | .asleep since => .asleep since
  | .returned result => .returned result
  | .detached => .gone

theorem resultCell_latch :
    Pool.Looks Move Arrives Latch.Move Latch.Arrives Cell.latch Thread.party where
  own m t m' t' spawned move := by
    cases move with
    | lock => exact .inr ⟨rfl, rfl, rfl⟩
    | store hnone => exact .inl (.store hnone)
    | keep hsome => exact .inl (.late hsome)
    | notify => exact .inl .notify
    | unlock => exact .inr ⟨rfl, rfl, rfl⟩
    | listen => exact .inl .listen
    | found _ hsome => exact .inl (.found hsome)
    | sleep _ hnone => exact .inl (.sleep hnone)
    | wake hcalls => exact .inl (.wake hcalls)
    | drop | detach => exact .inl (.leave trivial)
  env m m' spawned arrives := by
    cases arrives with
    | publish result => exact .setter _ result
    | wait => exact .waiter _

variable {p p' : Pool Cell Thread}

theorem reachable_latch (h : Reachable init Step p) :
    Reachable Latch.init Latch.Step (p.map Cell.latch Thread.party) :=
  resultCell_latch.reachable (fun q hq => by subst hq; rfl) h

theorem mem_party {t : Thread} (h : t ∈ p.threads) :
    t.party ∈ (p.map Cell.latch Thread.party).threads := List.mem_map_of_mem h

theorem completion_stays (run : Run Step p p') {result : Completion}
    (h : p.memory.completion = some result) : p'.memory.completion = some result := by
  refine Run.invariant (P := fun q => q.memory.completion = some result)
    (fun q q' hq step => ?_) run h
  rcases resultCell_latch.step step with hstep | hsame
  · exact Latch.Step.value hstep hq
  · exact (congrArg (·.memory.value) hsame).trans hq

/-! ### The lock -/

/-- Whether a thread holds the lock. -/
def Thread.holds : Thread → Nat
  | .holding _ | .storing | .unlocking => 1
  | _ => 0

/-- The lock is held by one thread, or by none. -/
theorem reachable_locked (h : Reachable init Step p) :
    p.memory.locked.toNat = Pool.tally Thread.holds p.threads := by
  refine h.invariant (P := fun q => q.memory.locked.toNat = Pool.tally Thread.holds q.threads)
    (fun q hq => by subst hq; rfl) fun q q' hq step => ?_
  refine Pool.Step.tally (I := fun m held => m.locked.toNat = held) (fun rest move hI => ?_)
    (fun rest arrives hI => ?_) step hq
  · cases move with
    | lock hfree =>
        simp only [hfree, Bool.toNat_false, Bool.toNat_true, Thread.holds,
          Pool.tally_nil] at hI ⊢
        omega
    | unlock =>
        rename_i m
        have hle := Bool.toNat_le m.locked
        simp only [Thread.holds, Bool.toNat_false, Pool.tally_nil] at hI ⊢
        omega
    | _ => simpa [Thread.holds] using hI
  · cases arrives <;> simpa [Thread.holds] using hI

/-- Whoever has the lock can go on, so that it is given up. -/
theorem holder_moves (h : Reachable init Step p) (locked : p.memory.locked = true) :
    ∃ t ∈ p.threads, t.holds = 1 ∧ ∃ m' t', Move p.memory t m' t' [] := by
  have hsum := reachable_locked h
  rw [locked, Bool.toNat_true] at hsum
  have hholder : ∃ t ∈ p.threads, t.holds ≠ 0 := by
    by_contra hnone
    have hzero : Pool.tally Thread.holds p.threads = 0 := by
      refine List.sum_eq_zero fun n hn => ?_
      obtain ⟨t, ht, rfl⟩ := List.mem_map.mp hn
      by_contra hne
      exact hnone ⟨t, ht, hne⟩
    omega
  obtain ⟨t, ht, hne⟩ := hholder
  refine ⟨t, ht, ?_, ?_⟩
  · cases t <;> simp_all [Thread.holds]
  · cases t with
    | holding result =>
        cases hcompletion : p.memory.completion with
        | none => exact ⟨_, _, .store hcompletion⟩
        | some first => exact ⟨_, _, .keep hcompletion⟩
    | storing => exact ⟨_, _, .notify⟩
    | unlocking => exact ⟨_, _, .unlock⟩
    | _ => exact absurd rfl hne

/-! ### The handles -/

/-- The future of a handle is waiting. -/
def Thread.waits : Thread → Prop
  | .top | .listening _ | .asleep _ => True
  | _ => False

/-- It is done. -/
def Thread.ended (result : Completion) (t : Thread) : Prop := t = .returned result ∨ t = .detached

/-- How many steps a future has left, once there is a result. -/
def Thread.movesLeft : Thread → Nat
  | .asleep _ => 3
  | .top => 2
  | .listening _ => 1
  | _ => 0

theorem Move.future {m m' : Cell} {t t' : Thread} {spawned : List Thread} {result : Completion}
    (move : Move m t m' t' spawned) (h : m.completion = some result)
    (future : t.waits ∨ t.ended result) :
    (t'.waits ∨ t'.ended result) ∧ t'.movesLeft < t.movesLeft := by
  cases move with
  | sleep _ hnone => rw [h] at hnone; cases hnone
  | found _ hsome =>
      rw [h] at hsome
      cases hsome
      exact ⟨.inr (.inl rfl), Nat.one_pos⟩
  | listen => exact ⟨.inl trivial, Nat.lt_succ_self 1⟩
  | wake => exact ⟨.inl trivial, Nat.lt_succ_self 2⟩
  | drop | detach => exact ⟨.inr (.inr rfl), by simp [Thread.movesLeft]⟩
  | _ => simp [Thread.waits, Thread.ended] at future

/-- The result is there, and its publisher has called the notifier. -/
def Announced (p : Pool Cell Thread) (result : Completion) : Prop :=
  p.memory.completion = some result ∧ .storing ∉ p.threads

theorem Announced.latch {result : Completion} (announced : Announced p result) :
    Latch.Announced (p.map Cell.latch Thread.party) result := by
  refine ⟨announced.1, fun hmem => ?_⟩
  obtain ⟨t, ht, hparty⟩ := List.mem_map.mp hmem
  cases t with
  | storing => exact announced.2 ht
  | _ => cases hparty

/-- A waiting future can go on when the lock is free. -/
theorem waiting_moves (h : Reachable init Step p) {result : Completion}
    (announced : Announced p result) (free : p.memory.locked = false) {t : Thread}
    (ht : t ∈ p.threads) (waits : t.waits) :
    ∃ t', t' ≠ .detached ∧ Move p.memory t p.memory t' [] := by
  cases t with
  | top => exact ⟨.listening p.memory.calls, nofun, .listen⟩
  | listening since => exact ⟨.returned result, nofun, .found free announced.1⟩
  | asleep since =>
      have hlt := Latch.no_lost_wakeup (reachable_latch h) announced.latch (mem_party ht)
      exact ⟨.top, nofun, .wake hlt.ne'⟩
  | _ => exact waits.elim

/-- **No handle misses the result, whatever the order of the steps.** The results that were
returned are the one that was published first, and it stays. Once its publisher has called the
notifier, a waiting future can go on as soon as the lock is free, whoever has the lock can give
it up, and after three steps of its own no future is waiting any more. -/
theorem result_waits_end (p : Pool Cell Thread) (h : Reachable init Step p) :
    (∀ result, .returned result ∈ p.threads → p.memory.completion = some result) ∧
    (∀ result, p.memory.completion = some result → ∀ p', Run Step p p' →
      p'.memory.completion = some result) ∧
    (p.memory.locked = true → ∃ t ∈ p.threads, t.holds = 1 ∧
      ∃ m' t', Move p.memory t m' t' []) ∧
    ∀ result, Announced p result → ∀ i t, p.threads[i]? = some t → t.waits →
      (p.memory.locked = false → ∃ t', t' ≠ .detached ∧ Move p.memory t p.memory t' []) ∧
      ∀ p' k, Pool.Turns Move Arrives i p p' k →
        k ≤ 3 ∧ ∃ t', p'.threads[i]? = some t' ∧ (t'.waits ∨ t'.ended result) ∧
          (k = 3 → t'.ended result) := by
  refine ⟨fun result hmem => ?_, fun result hresult p' run => completion_stays run hresult,
    holder_moves h, fun result announced i t ht waits => ⟨fun free =>
      waiting_moves h announced free (List.mem_of_getElem? ht) waits, fun p' k turns => ?_⟩⟩
  · exact (Latch.reachable_covered (reachable_latch h)).1 _ (mem_party hmem)
  · have hthree : t.movesLeft ≤ 3 := by
      cases t <;> simp_all [Thread.waits, Thread.movesLeft]
    obtain ⟨t', ht', hfuture, hrank⟩ := turns.follow
      (K := fun m => m.completion = some result)
      (R := fun k u => (u.waits ∨ u.ended result) ∧ u.movesLeft + k ≤ 3)
      (fun step hK => completion_stays (.single step) hK)
      (fun hK hR move => by
        obtain ⟨hfuture, hless⟩ := move.future hK hR.1
        exact ⟨hfuture, by omega⟩) announced.1 ht ⟨.inl waits, hthree⟩
    refine ⟨by omega, t', ht', hfuture, fun hk => ?_⟩
    rcases hfuture with hwaits | hended
    · have hpositive : 0 < t'.movesLeft := by
        cases t' <;> simp_all [Thread.waits, Thread.movesLeft]
      omega
    · exact hended

/-- A run that exits with 0. -/
def exited : Completion := .ok {
  exitCode := 0
  output := {
    stdout := []
    stderr := []
    truncated := false
    incomplete := false
    readerError := false }
  report := {
    requestedBackend := .inProcess
    dispatchedBackend := some .inProcess
    backendOutcome := .used
    cleanupStrength := none
    transportStatus := none } }

/-- A handle went to sleep before the run was published. -/
def woken : Pool Cell Thread := ⟨⟨some exited, 1, false⟩, [.asleep 0, .published]⟩

theorem woken_reachable : Reachable init Step woken := by
  have slept : Run Step ⟨⟨none, 0, false⟩, []⟩ ⟨⟨none, 0, false⟩, [.asleep 0]⟩ :=
    ((Relation.ReflTransGen.single (Pool.Step.environment [] (Arrives.wait _))).tail
      (Pool.Step.thread [] [] Move.listen)).tail (Pool.Step.thread [] [] (Move.sleep rfl rfl))
  have arrived : Step ⟨⟨none, 0, false⟩, [.asleep 0]⟩
      ⟨⟨none, 0, false⟩, [.asleep 0, .locking exited]⟩ :=
    Pool.Step.environment [Thread.asleep 0] (Arrives.publish _ exited)
  have locked : Step ⟨⟨none, 0, false⟩, [.asleep 0, .locking exited]⟩
      ⟨⟨none, 0, true⟩, [.asleep 0, .holding exited]⟩ :=
    Pool.Step.thread [Thread.asleep 0] [] (Move.lock rfl)
  have stored : Step ⟨⟨none, 0, true⟩, [.asleep 0, .holding exited]⟩
      ⟨⟨some exited, 0, true⟩, [.asleep 0, .storing]⟩ :=
    Pool.Step.thread [Thread.asleep 0] [] (Move.store rfl)
  have notified : Step ⟨⟨some exited, 0, true⟩, [.asleep 0, .storing]⟩
      ⟨⟨some exited, 1, true⟩, [.asleep 0, .unlocking]⟩ :=
    Pool.Step.thread [Thread.asleep 0] [] Move.notify
  have unlocked : Step ⟨⟨some exited, 1, true⟩, [.asleep 0, .unlocking]⟩ woken :=
    Pool.Step.thread [Thread.asleep 0] [] Move.unlock
  exact ⟨_, rfl, ((((slept.tail arrived).tail locked).tail stored).tail notified).tail unlocked⟩

theorem result_waits_end_sample :
    ∃ t', t' ≠ .detached ∧ Move woken.memory (.asleep 0) woken.memory t' [] :=
  ((result_waits_end woken woken_reachable).2.2.2 exited ⟨rfl, by simp [woken]⟩ 0 (.asleep 0) rfl
    trivial).1 rfl

end Libdeno.Executor.ResultCell
