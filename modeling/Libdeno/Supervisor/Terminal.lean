import Libdeno.Io
import Libdeno.Cancellation

/-!
# Libdeno.Supervisor.Terminal

The TERMINAL payload of the supervisor protocol and its shape rules: which
combinations of outcome, exit code and failure category a child may report.
-/

namespace Libdeno.Supervisor

/-- `SupervisorOutcome`. -/
inductive SupervisorOutcome
  | completed
  | failed
  | cancelled
  | deadline
  deriving Repr, DecidableEq

/-- `SupervisorFailureCategory`. -/
inductive SupervisorFailureCategory
  | permission
  | timeout
  | runtime
  | infrastructure
  | childCrash
  deriving Repr, DecidableEq

/-- `SupervisorFailureCategory::summary`. -/
def SupervisorFailureCategory.summary : SupervisorFailureCategory → String
  | .permission => "supervisor child permission failure"
  | .timeout => "supervisor session timed out"
  | .runtime => "supervisor child runtime failure"
  | .infrastructure => "supervisor infrastructure failure"
  | .childCrash => "supervisor child exited without a terminal result"

/-- `SupervisorTerminal`. -/
structure SupervisorTerminal where
  outcome : SupervisorOutcome
  exitCode : Option Int32
  category : Option SupervisorFailureCategory
  stdout : List UInt8
  stderr : List UInt8
  truncated : Bool
  deriving Repr, DecidableEq

/-- The `valid` flag of `validate_supervisor_terminal_shape`. -/
def SupervisorTerminal.fieldsValid (terminal : SupervisorTerminal) : Bool :=
  match terminal.outcome with
  | .completed => terminal.exitCode.isSome && terminal.category.isNone
  | .failed =>
      terminal.exitCode.isNone &&
        match terminal.category with
        | some .permission | some .runtime | some .infrastructure => true
        | _ => false
  | .cancelled | .deadline => terminal.exitCode.isNone && terminal.category.isNone

/-- `validate_supervisor_terminal_shape`. -/
def validateSupervisorTerminalShape (terminal : SupervisorTerminal) : Except IoError Unit :=
  if !terminal.fieldsValid then
    .error (invalidData "invalid supervisor TERMINAL result fields")
  else if !terminal.stdout.isEmpty || !terminal.stderr.isEmpty || terminal.truncated then
    .error (invalidData "supervisor v2 TERMINAL must not carry output")
  else
    .ok ()

/-- What the shape check accepts: valid fields and no output. -/
theorem validateSupervisorTerminalShape_ok {terminal : SupervisorTerminal} :
    validateSupervisorTerminalShape terminal = .ok () ↔
      terminal.fieldsValid = true ∧ terminal.stdout = [] ∧ terminal.stderr = [] ∧
        terminal.truncated = false := by
  unfold validateSupervisorTerminalShape
  cases terminal.fieldsValid <;> cases terminal.stdout <;> cases terminal.stderr <;>
    cases terminal.truncated <;> simp

/-- A completed terminal of valid shape carries an exit code. -/
theorem exitCode_of_completed {terminal : SupervisorTerminal}
    (shape : validateSupervisorTerminalShape terminal = .ok ())
    (completed : terminal.outcome = .completed) :
    ∃ code, terminal.exitCode = some code := by
  have fields := (validateSupervisorTerminalShape_ok.mp shape).1
  rw [SupervisorTerminal.fieldsValid, completed] at fields
  simp only [Bool.and_eq_true] at fields
  exact Option.isSome_iff_exists.mp fields.1

/-- The outcome a child reports for a cancellation before START. Both sides of
the protocol spell this table out: the parent when it checks a pre-START
TERMINAL, the child when it answers a pre-START CANCEL. -/
def preStartOutcome : CancelReason → SupervisorOutcome
  | .deadline => .deadline
  | .user | .shutdown => .cancelled

theorem preStartOutcome_ne_completed (reason : CancelReason) :
    preStartOutcome reason ≠ .completed := by
  cases reason <;> simp [preStartOutcome]

end Libdeno.Supervisor
