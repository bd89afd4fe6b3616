import Mathlib.Algebra.Group.Nat.Even
import Mathlib.Tactic.Ring

/-!
# Libdeno.Library.BigEndian

**Fixed-width big-endian numbers.** `toBE width n` writes the low `width` bytes
of `n`, most significant first; `ofBE` reads a byte string back. The two are
inverse on the numbers that fit (`ofBE_toBE`) and on the byte strings of the
right length (`toBE_ofBE`), which is what a binary header format needs in its two
directions.
-/

namespace BigEndian

/-- The `width` low bytes of `n`, most significant byte first. -/
def toBE : Nat → Nat → List UInt8
  | 0, _ => []
  | width + 1, n => UInt8.ofNat (n / 256 ^ width) :: toBE width (n % 256 ^ width)

/-- The number a big-endian byte string denotes. -/
def ofBE : List UInt8 → Nat
  | [] => 0
  | b :: bs => b.toNat * 256 ^ bs.length + ofBE bs

@[simp] theorem toBE_zero (n : Nat) : toBE 0 n = [] := rfl

@[simp] theorem ofBE_nil : ofBE [] = 0 := rfl

@[simp] theorem length_toBE (width n : Nat) : (toBE width n).length = width := by
  induction width generalizing n with
  | zero => rfl
  | succ width ih => simp [toBE, ih]

/-- A byte string of length `w` denotes a number below `256 ^ w`. -/
theorem ofBE_lt (bs : List UInt8) : ofBE bs < 256 ^ bs.length := by
  induction bs with
  | nil => simp
  | cons b bs ih =>
      have hb : b.toNat ≤ 255 := Nat.le_of_lt_succ b.toNat_lt
      have hmul : b.toNat * 256 ^ bs.length ≤ 255 * 256 ^ bs.length :=
        Nat.mul_le_mul_right _ hb
      have hpow : 256 ^ (b :: bs).length = 256 * 256 ^ bs.length := by
        rw [List.length_cons, Nat.pow_succ, Nat.mul_comm]
      rw [ofBE, hpow]
      omega

/-- Reading back what was written, for a number that fits the width. -/
theorem ofBE_toBE {width n : Nat} (fits : n < 256 ^ width) : ofBE (toBE width n) = n := by
  induction width generalizing n with
  | zero =>
      have : n = 0 := by simpa using fits
      simp [this]
  | succ width ih =>
      have hpos : 0 < 256 ^ width := Nat.pow_pos (by decide)
      have hquot : n / 256 ^ width < 256 := by
        rw [Nat.div_lt_iff_lt_mul hpos, Nat.mul_comm, ← Nat.pow_succ]
        exact fits
      have hbyte : (UInt8.ofNat (n / 256 ^ width)).toNat = n / 256 ^ width := by
        simp [UInt8.toNat_ofNat', Nat.mod_eq_of_lt hquot]
      rw [toBE, ofBE, ih (Nat.mod_lt _ hpos), length_toBE, hbyte]
      exact Nat.div_add_mod' n (256 ^ width)

/-- Writing back what was read. -/
theorem toBE_ofBE (bs : List UInt8) : toBE bs.length (ofBE bs) = bs := by
  induction bs with
  | nil => rfl
  | cons b bs ih =>
      have hlt := ofBE_lt bs
      have hpos : 0 < 256 ^ bs.length := Nat.pow_pos (by decide)
      have hquot : (b.toNat * 256 ^ bs.length + ofBE bs) / 256 ^ bs.length = b.toNat := by
        rw [Nat.mul_comm, Nat.mul_add_div hpos, Nat.div_eq_of_lt hlt, Nat.add_zero]
      have hrem : (b.toNat * 256 ^ bs.length + ofBE bs) % 256 ^ bs.length = ofBE bs := by
        rw [Nat.mul_comm, Nat.mul_add_mod, Nat.mod_eq_of_lt hlt]
      rw [List.length_cons, toBE, ofBE, hquot, hrem, ih]
      simp

end BigEndian
