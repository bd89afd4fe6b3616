import Mathlib.Tactic.Common

/-!
# Libdeno.Io

The error values the modelled functions return: an I/O error keeps the
`std::io::ErrorKind` its callers branch on and the message it carries. A chain of
fallible steps that succeeds is taken apart with `except_bind_ok`.
-/

namespace Libdeno

/-- The `std::io::ErrorKind`s the modelled code produces or inspects; `other`
stands for every kind it only passes on. -/
inductive ErrorKind
  | invalidData
  | interrupted
  | timedOut
  | unexpectedEof
  | writeZero
  | wouldBlock
  | brokenPipe
  | connectionReset
  | connectionAborted
  | other
  deriving Repr, DecidableEq

/-- `std::io::Error`, as far as the modelled code looks into it. -/
structure IoError where
  kind : ErrorKind
  message : String
  deriving Repr, DecidableEq

/-- `invalid_data` of `supervisor.rs`. -/
def invalidData (message : String) : IoError :=
  { kind := .invalidData, message := message }

@[simp] theorem invalidData_kind (message : String) :
    (invalidData message).kind = .invalidData := rfl

theorem except_bind_ok {ε α β : Type} {x : Except ε α} {f : α → Except ε β} {b : β} :
    x >>= f = .ok b ↔ ∃ a, x = .ok a ∧ f a = .ok b := by
  cases x <;> simp [bind, Except.bind]

theorem mapError_ok {ε κ α : Type} {x : Except ε α} {f : ε → κ} {a : α} :
    x.mapError f = .ok a ↔ x = .ok a := by
  cases x <;> simp [Except.mapError]

end Libdeno
