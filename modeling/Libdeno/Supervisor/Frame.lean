import Mathlib.Data.List.GetD
import Libdeno.Io

/-!
# Libdeno.Supervisor.Frame

The frames of the supervisor wire protocol, their kinds and directions, and the
shared secret a child proves knowledge of in HELLO.
-/

namespace Libdeno.Supervisor

/-- `SUPERVISOR_MAGIC`: the bytes of `LDSV`. -/
def supervisorMagic : List UInt8 := [0x4C, 0x44, 0x53, 0x56]

/-- `SUPERVISOR_VERSION`. -/
def supervisorVersion : UInt8 := 2

/-- `MAX_SUPERVISOR_FRAME_PAYLOAD`. -/
def maxSupervisorFramePayload : Nat := 1 <<< 20

/-- `SUPERVISOR_HEADER_LEN`. -/
def supervisorHeaderLen : Nat := 4 + 1 + 1 + 8 + 4

/-- `FrameDirection`. -/
inductive FrameDirection
  | parentToChild
  | childToParent
  deriving Repr, DecidableEq

/-- `FrameKind`. -/
inductive FrameKind
  | request
  | start
  | cancel
  | hello
  | accepted
  | started
  | terminal
  deriving Repr, DecidableEq

namespace FrameKind

/-- `FrameKind::to_byte`. -/
def toByte : FrameKind → UInt8
  | request => 1
  | start => 2
  | cancel => 3
  | hello => 4
  | accepted => 5
  | started => 6
  | terminal => 7

/-- `FrameKind::from_byte`. -/
def fromByte : UInt8 → Option FrameKind
  | 1 => some request
  | 2 => some start
  | 3 => some cancel
  | 4 => some hello
  | 5 => some accepted
  | 6 => some started
  | 7 => some terminal
  | _ => none

/-- `FrameKind::direction`. -/
def direction : FrameKind → FrameDirection
  | request | start | cancel => .parentToChild
  | hello | accepted | started | terminal => .childToParent

/-- `FrameKind::validate_direction`. -/
def validateDirection (self : FrameKind) (expected : FrameDirection) : Except IoError Unit :=
  if self.direction = expected then .ok ()
  else .error (invalidData "supervisor frame has the wrong direction")

@[simp] theorem fromByte_toByte (kind : FrameKind) : fromByte kind.toByte = some kind := by
  cases kind <;> rfl

/-- The kind bytes are exactly the images of `toByte`. -/
theorem toByte_of_fromByte {value : UInt8} {kind : FrameKind}
    (h : fromByte value = some kind) : kind.toByte = value := by
  unfold fromByte at h
  split at h
  all_goals first
    | (obtain rfl := Option.some.inj h; rfl)
    | contradiction

theorem validateDirection_ok {kind : FrameKind} {expected : FrameDirection} :
    kind.validateDirection expected = .ok () ↔ kind.direction = expected := by
  unfold validateDirection
  split <;> simp_all

end FrameKind

/-- `SupervisorFrame`. -/
structure SupervisorFrame where
  kind : FrameKind
  requestId : UInt64
  payload : List UInt8
  deriving Repr, DecidableEq

/-- `SupervisorFrame::new`. -/
def SupervisorFrame.new (kind : FrameKind) (requestId : UInt64) (payload : List UInt8) :
    Except IoError SupervisorFrame :=
  if payload.length > maxSupervisorFramePayload then
    .error (invalidData "supervisor frame payload is too large")
  else
    .ok { kind, requestId, payload }

theorem SupervisorFrame.new_ok {kind : FrameKind} {requestId : UInt64} {payload : List UInt8}
    (fits : payload.length ≤ maxSupervisorFramePayload) :
    SupervisorFrame.new kind requestId payload = .ok { kind, requestId, payload } := by
  rw [SupervisorFrame.new, if_neg (Nat.not_lt.mpr fits)]

/-- `SupervisorToken`: sixteen secret bytes. -/
structure SupervisorToken where
  bytes : List UInt8
  length_eq : bytes.length = 16

/-- `SupervisorToken::authenticate`: every byte is compared, also after a
mismatch, and a missing candidate byte reads as zero. -/
def SupervisorToken.authenticate (self : SupervisorToken) (candidate : List UInt8) : Bool :=
  let difference : UInt8 := if candidate.length ≠ self.bytes.length then 1 else 0
  (List.range self.bytes.length).foldl
    (fun difference index =>
      difference ||| (self.bytes.getD index 0 ^^^ candidate.getD index 0))
    difference == 0

/-- An accumulated difference is zero only when every contribution is. -/
theorem foldl_or_eq_zero {α : Type*} (f : α → UInt8) (xs : List α) (init : UInt8) :
    xs.foldl (fun difference x => difference ||| f x) init = 0 ↔
      init = 0 ∧ ∀ x ∈ xs, f x = 0 := by
  induction xs generalizing init with
  | nil => simp
  | cons x xs ih =>
      rw [List.foldl_cons, ih, UInt8.or_eq_zero_iff]
      simp only [List.mem_cons, forall_eq_or_imp, and_assoc]

/-- Authentication accepts exactly the secret. -/
theorem SupervisorToken.authenticate_iff (self : SupervisorToken) (candidate : List UInt8) :
    self.authenticate candidate = true ↔ candidate = self.bytes := by
  rw [authenticate, beq_iff_eq, foldl_or_eq_zero]
  constructor
  · rintro ⟨hlen, hbytes⟩
    have len : candidate.length = self.bytes.length := by
      by_contra hne
      simp [hne] at hlen
    apply List.ext_getElem len
    intro i hi hi'
    have := hbytes i (List.mem_range.mpr hi')
    rw [UInt8.xor_eq_zero_iff, List.getD_eq_getElem _ _ hi', List.getD_eq_getElem _ _ hi] at this
    exact this.symm
  · rintro rfl
    simp

end Libdeno.Supervisor
