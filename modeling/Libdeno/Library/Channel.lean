import Mathlib.Data.List.Infix

/-!
# Libdeno.Library.Channel

**FIFO channels with a history.** A channel remembers what it delivered beside
what is still in flight, so a protocol proof can speak about everything that was
sent and about how far the receiver got, without history variables of its own.
-/

/-- A reliable FIFO channel. -/
structure Channel (α : Type*) where
  delivered : List α
  inFlight : List α
  deriving Repr, DecidableEq

namespace Channel

variable {α : Type*} {c c' : Channel α} {x : α}

/-- A channel nothing was sent on. -/
def empty : Channel α := { delivered := [], inFlight := [] }

/-- Everything that was sent, in order. -/
def sent (c : Channel α) : List α := c.delivered ++ c.inFlight

/-- Send. -/
def push (c : Channel α) (x : α) : Channel α := { c with inFlight := c.inFlight ++ [x] }

/-- Receive the oldest message in flight. -/
def pop (c : Channel α) : Option (α × Channel α) :=
  match c.inFlight with
  | [] => none
  | x :: rest => some (x, { delivered := c.delivered ++ [x], inFlight := rest })

@[simp] theorem empty_sent : (empty : Channel α).sent = [] := rfl

@[simp] theorem empty_delivered : (empty : Channel α).delivered = [] := rfl

@[simp] theorem push_sent (c : Channel α) (x : α) : (c.push x).sent = c.sent ++ [x] := by
  simp [sent, push]

@[simp] theorem push_delivered (c : Channel α) (x : α) :
    (c.push x).delivered = c.delivered := rfl

theorem delivered_prefix (c : Channel α) : c.delivered <+: c.sent :=
  List.prefix_append _ _

theorem sent_of_pop (h : c.pop = some (x, c')) : c'.sent = c.sent := by
  unfold pop at h
  split at h
  · cases h
  · next y rest hflight =>
    obtain ⟨rfl, rfl⟩ := by simpa using h
    simp [sent, hflight]

theorem delivered_of_pop (h : c.pop = some (x, c')) : c'.delivered = c.delivered ++ [x] := by
  unfold pop at h
  split at h
  · cases h
  · obtain ⟨rfl, rfl⟩ := by simpa using h
    rfl

/-- What is received next is what was sent next. -/
theorem prefix_of_pop (h : c.pop = some (x, c')) : c.delivered ++ [x] <+: c.sent := by
  rw [← sent_of_pop h, ← delivered_of_pop h]
  exact c'.delivered_prefix

end Channel
