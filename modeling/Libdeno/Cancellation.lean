import Mathlib.Data.Option.Basic

/-!
# Libdeno.Cancellation

The cancellation bridge of `limits.rs` and its supervisor wrapper. A context
holds two cells, the first recorded reason and the `requested` flag;
`request_with_reason` writes them one after the other, so a concurrent reader can
see the reason without the flag. The two writes are separate functions here, and
the step relations of this development interleave them.

The isolate handle and the notifier of the context are not part of this module:
no decision modelled on top of it reads them.
-/

namespace Libdeno

/-- `CancellationReason`, re-exported by the supervisor as `CancelReason`. -/
inductive CancelReason
  | user
  | deadline
  | shutdown
  deriving Repr, DecidableEq

/-- `CancellationContext`: the reason is first-writer-wins. -/
structure CancellationContext where
  requested : Bool
  reason : Option CancelReason
  deriving Repr, DecidableEq

namespace CancellationContext

/-- `CancellationContext::new`. -/
def new : CancellationContext :=
  { requested := false, reason := none }

/-- First write of `request_with_reason`: `reason.get_or_insert(reason)`. -/
def insertReason (self : CancellationContext) (reason : CancelReason) : CancellationContext :=
  { self with reason := some (self.reason.getD reason) }

/-- Second write of `request_with_reason`: `requested.store(true)`. -/
def storeRequested (self : CancellationContext) : CancellationContext :=
  { self with requested := true }

/-- `request_with_reason` with nothing in between its two writes. -/
def requestWithReason (self : CancellationContext) (reason : CancelReason) :
    CancellationContext :=
  (self.insertReason reason).storeRequested

/-- `is_requested`. -/
def isRequested (self : CancellationContext) : Bool := self.requested

@[simp] theorem insertReason_requested (self : CancellationContext) (r : CancelReason) :
    (self.insertReason r).requested = self.requested := rfl

@[simp] theorem insertReason_reason (self : CancellationContext) (r : CancelReason) :
    (self.insertReason r).reason = some (self.reason.getD r) := rfl

@[simp] theorem storeRequested_requested (self : CancellationContext) :
    self.storeRequested.requested = true := rfl

@[simp] theorem storeRequested_reason (self : CancellationContext) :
    self.storeRequested.reason = self.reason := rfl

/-- The first recorded reason wins: a later request leaves it in place. -/
theorem insertReason_reason_of_some {self : CancellationContext} {first : CancelReason}
    (h : self.reason = some first) (r : CancelReason) :
    (self.insertReason r).reason = some first := by
  simp [h]

end CancellationContext

/-- `SupervisorCancellation`: the shared context and the reason reported when
none has been requested. -/
structure SupervisorCancellation where
  context : CancellationContext
  defaultReason : CancelReason
  deriving Repr, DecidableEq

namespace SupervisorCancellation

/-- `SupervisorCancellation::is_requested`. -/
def isRequested (self : SupervisorCancellation) : Bool := self.context.isRequested

/-- `SupervisorCancellation::requested_reason`. -/
def requestedReason (self : SupervisorCancellation) : Option CancelReason :=
  self.context.reason

/-- `SupervisorCancellation::reason`. -/
def reason (self : SupervisorCancellation) : CancelReason :=
  self.requestedReason.getD self.defaultReason

theorem reason_of_requested {self : SupervisorCancellation} {r : CancelReason}
    (h : self.requestedReason = some r) : self.reason = r := by
  simp [reason, h]

end SupervisorCancellation

end Libdeno
