import Mathlib.Data.List.Infix
import Mathlib.Tactic.Common
import Mathlib.Tactic.Ring

/-!
# Libdeno.Library.Text

**Reading and writing ASCII texts piece by piece.** A reader takes a piece off the
front of the input and returns the rest; each piece comes with a lemma that reading
what was written, followed by anything, gives the value back and leaves the rest.
The pieces are fixed literals (`expect`), one of several literals (`choose`) and
decimal numbers (`readNumber`).
-/

namespace Text

/-- The bytes of an ASCII text. -/
def ascii (text : String) : List UInt8 :=
  text.toList.map fun c => UInt8.ofNat c.toNat

/-! ### Literals -/

/-- Take a literal off the front. -/
def expect (literal input : List UInt8) : Option (List UInt8) :=
  if literal <+: input then some (input.drop literal.length) else none

@[simp] theorem expect_append (literal rest : List UInt8) :
    expect literal (literal ++ rest) = some rest := by
  simp [expect]

variable {α : Type}

/-- Take the first literal of a table that matches. -/
def choose : List (List UInt8 × α) → List UInt8 → Option (α × List UInt8)
  | [], _ => none
  | (text, value) :: table, input =>
      match expect text input with
      | some rest => some (value, rest)
      | none => choose table input

/-- No text of a table is the beginning of another one. -/
def PrefixFree (table : List (List UInt8 × α)) : Prop :=
  table.Pairwise fun a b => ¬ a.1 <+: b.1 ∧ ¬ b.1 <+: a.1

theorem choose_append {table : List (List UInt8 × α)} (free : PrefixFree table)
    {text : List UInt8} {value : α} (mem : (text, value) ∈ table) (rest : List UInt8) :
    choose table (text ++ rest) = some (value, rest) := by
  induction table with
  | nil => cases mem
  | cons entry table ih =>
      obtain ⟨text', value'⟩ := entry
      obtain ⟨hhead, htail⟩ := List.pairwise_cons.mp free
      rw [choose]
      rcases List.mem_cons.mp mem with heq | hmem
      · obtain ⟨rfl, rfl⟩ := Prod.mk.inj heq
        rw [expect_append]
      · obtain ⟨hne, hne'⟩ := hhead _ hmem
        have hno : ¬ text' <+: text ++ rest := by
          intro hstart
          rcases Nat.le_total text'.length text.length with hle | hle
          · exact hne (List.prefix_of_prefix_length_le hstart (List.prefix_append _ _) hle)
          · exact hne' (List.prefix_of_prefix_length_le (List.prefix_append _ _) hstart hle)
        rw [expect, if_neg hno]
        exact ih htail hmem

/-! ### Decimal numbers -/

/-- The digit of a number below ten. -/
def digit (n : Nat) : UInt8 := UInt8.ofNat (48 + n)

/-- The decimal digits of `n`, which has at most `more + 1` of them. -/
def decimal : Nat → Nat → List UInt8
  | 0, n => [digit (n % 10)]
  | more + 1, n => if n < 10 then [digit n] else decimal more (n / 10) ++ [digit (n % 10)]

def isDigit (b : UInt8) : Bool := 48 ≤ b.toNat && b.toNat ≤ 57

/-- Read digits as long as there are any. -/
def readNumber (read : Nat) : List UInt8 → Nat × List UInt8
  | [] => (read, [])
  | b :: bs => if isDigit b then readNumber (read * 10 + (b.toNat - 48)) bs else (read, b :: bs)

theorem digit_toNat {n : Nat} (h : n < 10) : (digit n).toNat = 48 + n := by
  rw [digit, UInt8.toNat_ofNat']
  omega

theorem isDigit_digit {n : Nat} (h : n < 10) : isDigit (digit n) = true := by
  simp only [isDigit, digit_toNat h, Bool.and_eq_true, decide_eq_true_eq]
  omega

theorem readNumber_digit {n : Nat} (h : n < 10) (read : Nat) (rest : List UInt8) :
    readNumber read (digit n :: rest) = readNumber (read * 10 + n) rest := by
  rw [readNumber, if_pos (isDigit_digit h), digit_toNat h, Nat.add_sub_cancel_left]

theorem length_decimal (more n : Nat) : (decimal more n).length ≤ more + 1 := by
  induction more generalizing n with
  | zero => simp [decimal]
  | succ more ih =>
      rw [decimal]
      split
      · simp
      · have := ih (n / 10)
        rw [List.length_append]
        simp only [List.length_singleton]
        omega

/-- The digits of a number continue whatever was read before. -/
theorem readNumber_decimal {more n : Nat} (fits : n < 10 ^ (more + 1)) (read : Nat)
    (rest : List UInt8) :
    readNumber read (decimal more n ++ rest) =
      readNumber (read * 10 ^ (decimal more n).length + n) rest := by
  induction more generalizing n rest with
  | zero =>
      have hn : n < 10 := by simpa using fits
      rw [decimal, Nat.mod_eq_of_lt hn, List.singleton_append, readNumber_digit hn]
      simp
  | succ more ih =>
      rw [decimal]
      split
      · next hn =>
        rw [List.singleton_append, readNumber_digit hn]
        simp
      · have hquot : n / 10 < 10 ^ (more + 1) := by
          rw [Nat.div_lt_iff_lt_mul (by decide), ← Nat.pow_succ]
          exact fits
        have hrem : n % 10 < 10 := Nat.mod_lt _ (by decide)
        rw [List.append_assoc, ih hquot, List.singleton_append, readNumber_digit hrem]
        congr 1
        rw [List.length_append, List.length_singleton, Nat.pow_succ]
        have hn := Nat.div_add_mod n 10
        ring_nf
        ring_nf at hn
        omega

/-- Reading back a number that something other than a digit follows. -/
theorem readNumber_decimal_stop {more n : Nat} (fits : n < 10 ^ (more + 1)) {b : UInt8}
    (hb : isDigit b = false) (rest : List UInt8) :
    readNumber 0 (decimal more n ++ b :: rest) = (n, b :: rest) := by
  rw [readNumber_decimal fits, Nat.zero_mul, Nat.zero_add, readNumber, if_neg (by simp [hb])]

/-- A number begins with a digit. -/
theorem decimal_head (more n : Nat) :
    ∃ d ds, d < 10 ∧ decimal more n = digit d :: ds := by
  induction more generalizing n with
  | zero => exact ⟨n % 10, [], Nat.mod_lt _ (by decide), rfl⟩
  | succ more ih =>
      rw [decimal]
      split
      · next hn => exact ⟨n, [], hn, rfl⟩
      · obtain ⟨d, ds, hd, heq⟩ := ih (n / 10)
        exact ⟨d, ds ++ [digit (n % 10)], hd, by rw [heq, List.cons_append]⟩

/-- A literal that does not begin with a digit is not read off a number. -/
theorem expect_decimal {b : UInt8} {literal : List UInt8} (hb : isDigit b = false)
    (more n : Nat) (rest : List UInt8) :
    expect (b :: literal) (decimal more n ++ rest) = none := by
  obtain ⟨d, ds, hd, heq⟩ := decimal_head more n
  have hne : b ≠ digit d := by
    rintro rfl
    rw [isDigit_digit hd] at hb
    cases hb
  rw [heq, expect, if_neg]
  rw [List.cons_append, List.cons_prefix_cons]
  exact fun h => hne h.1

end Text
