import Mathlib.Data.List.Basic
import Mathlib.Tactic.Common

/-!
# Libdeno.Library.Hex

**Bytes as hexadecimal text.** `encode` writes two lower-case digits a byte; `decode` reads
digits of either case back. What `decode` accepts is, up to the case of its letters, exactly
what `encode` writes (`decode_eq_some`), so the two are inverse on lower-case texts.
-/

namespace Hex

/-- The lower-case digit of a number below 16. -/
def digit (n : UInt8) : UInt8 := if n < 10 then n + 48 else n + 87

/-- The number a digit stands for. -/
def value (c : UInt8) : Option UInt8 :=
  if 48 ≤ c ∧ c ≤ 57 then some (c - 48)
  else if 97 ≤ c ∧ c ≤ 102 then some (c - 97 + 10)
  else if 65 ≤ c ∧ c ≤ 70 then some (c - 65 + 10)
  else none

/-- `to_ascii_lowercase` of one byte. -/
def lower (c : UInt8) : UInt8 := if 65 ≤ c ∧ c ≤ 90 then c + 32 else c

def encode : List UInt8 → List UInt8
  | [] => []
  | b :: bs => digit (b >>> 4) :: digit (b &&& 15) :: encode bs

/-- The bytes of a text, none where a character is no digit or a digit has no partner. -/
def decode : List UInt8 → Option (List UInt8)
  | [] => some []
  | high :: low :: rest =>
      match value high, value low, decode rest with
      | some h, some l, some bytes => some ((h <<< 4 ||| l) :: bytes)
      | _, _, _ => none
  | [_] => none

/-! ### One byte -/

private theorem value_digit_fin : ∀ n : Fin 16, value (digit (.ofNat n)) = some (.ofNat n) := by
  decide

private theorem value_fin : ∀ c : Fin 256, ∀ n ∈ value (.ofNat c), n < 16 ∧
    digit n = lower (.ofNat c) := by
  decide +kernel

private theorem value_lower_fin : ∀ c : Fin 256, value (lower (.ofNat c)) = value (.ofNat c) := by
  decide +kernel

private theorem join_fin : ∀ h l : Fin 16,
    ((UInt8.ofNat h <<< 4 ||| .ofNat l) >>> 4 = .ofNat h) ∧
      ((UInt8.ofNat h <<< 4 ||| .ofNat l) &&& 15 = .ofNat l) := by
  decide +kernel

private theorem split_fin : ∀ b : Fin 256,
    (UInt8.ofNat b >>> 4 < 16 ∧ UInt8.ofNat b &&& 15 < 16) ∧
      ((UInt8.ofNat b >>> 4) <<< 4 ||| (UInt8.ofNat b &&& 15)) = .ofNat b := by
  decide +kernel

/-- A byte is the value of a number below 256. -/
private theorem forall_byte {P : UInt8 → Prop} (h : ∀ c : Fin 256, P (.ofNat c)) (b : UInt8) :
    P b := by
  have := h ⟨b.toNat, b.toNat_lt⟩
  simpa using this

private theorem forall_nibble {P : UInt8 → Prop} (h : ∀ c : Fin 16, P (.ofNat c)) (b : UInt8)
    (hb : b < 16) : P b := by
  have := h ⟨b.toNat, UInt8.lt_iff_toNat_lt.mp hb⟩
  simpa using this

theorem value_digit {n : UInt8} (hn : n < 16) : value (digit n) = some n :=
  forall_nibble (P := fun n => value (digit n) = some n) value_digit_fin n hn

theorem digit_of_value {c n : UInt8} (h : value c = some n) : n < 16 ∧ digit n = lower c :=
  forall_byte (P := fun c => ∀ n ∈ value c, n < 16 ∧ digit n = lower c) value_fin c n h

theorem value_lower (c : UInt8) : value (lower c) = value c :=
  forall_byte (P := fun c => value (lower c) = value c) value_lower_fin c

theorem join {h l : UInt8} (hh : h < 16) (hl : l < 16) :
    (h <<< 4 ||| l) >>> 4 = h ∧ (h <<< 4 ||| l) &&& 15 = l :=
  forall_nibble (P := fun h => (h <<< 4 ||| l) >>> 4 = h ∧ (h <<< 4 ||| l) &&& 15 = l)
    (fun h => forall_nibble (P := fun l => (UInt8.ofNat h <<< 4 ||| l) >>> 4 = .ofNat h ∧
      (UInt8.ofNat h <<< 4 ||| l) &&& 15 = l) (join_fin h) l hl) h hh

theorem split (b : UInt8) :
    (b >>> 4 < 16 ∧ b &&& 15 < 16) ∧ ((b >>> 4) <<< 4 ||| (b &&& 15)) = b :=
  forall_byte (P := fun b => (b >>> 4 < 16 ∧ b &&& 15 < 16) ∧
    ((b >>> 4) <<< 4 ||| (b &&& 15)) = b) split_fin b

/-! ### Texts -/

theorem encode_length (bytes : List UInt8) : (encode bytes).length = 2 * bytes.length := by
  induction bytes with
  | nil => rfl
  | cons b bytes ih =>
      simp only [encode, List.length_cons, ih]
      omega

theorem decode_encode (bytes : List UInt8) : decode (encode bytes) = some bytes := by
  induction bytes with
  | nil => rfl
  | cons b bytes ih =>
      obtain ⟨⟨hhigh, hlow⟩, hjoin⟩ := split b
      rw [encode, decode, value_digit hhigh, value_digit hlow, ih]
      simp only [hjoin]

/-- What is accepted is a text `encode` writes, up to the case of its letters. -/
theorem decode_eq_some (text bytes : List UInt8) :
    decode text = some bytes ↔ text.map lower = encode bytes := by
  induction text using decode.induct generalizing bytes with
  | case1 =>
      cases bytes with
      | nil => simp [decode, encode]
      | cons b bytes => simp [decode, encode]
  | case2 high low rest h l tail hrest hlow hhigh ih =>
      obtain ⟨hh, hdigit⟩ := digit_of_value hhigh
      obtain ⟨hl, hdigit'⟩ := digit_of_value hlow
      rw [decode, hhigh, hlow, hrest]
      simp only [Option.some.injEq, List.map_cons]
      constructor
      · rintro rfl
        obtain ⟨hjoin, hjoin'⟩ := join hh hl
        rw [encode, hjoin, hjoin', hdigit, hdigit', (ih tail).mp hrest]
      · intro heq
        cases bytes with
        | nil => cases heq
        | cons b bytes =>
            obtain ⟨⟨hbh, hbl⟩, hsplit⟩ := split b
            simp only [encode, List.cons.injEq] at heq
            obtain ⟨h₁, h₂, h₃⟩ := heq
            -- the digits determine the halves of the byte
            have hhalf : some h = some (b >>> 4) := by
              rw [← value_digit hh, ← value_digit hbh, hdigit, h₁]
            have hhalf' : some l = some (b &&& 15) := by
              rw [← value_digit hl, ← value_digit hbl, hdigit', h₂]
            cases hhalf
            cases hhalf'
            have htail := (ih bytes).mpr h₃
            rw [hrest] at htail
            cases htail
            rw [hsplit]
  | case3 high low rest hnone ih =>
      rw [decode]
      constructor
      · intro h
        split at h
        · next hh hl hr => exact absurd hr (hnone _ _ _ hh hl)
        · cases h
      · intro heq
        cases bytes with
        | nil => cases heq
        | cons b bytes =>
            obtain ⟨⟨hbh, hbl⟩, -⟩ := split b
            simp only [encode, List.map_cons, List.cons.injEq] at heq
            obtain ⟨h₁, h₂, h₃⟩ := heq
            have hh : value high = some (b >>> 4) := by
              rw [← value_lower, h₁, value_digit hbh]
            have hl : value low = some (b &&& 15) := by
              rw [← value_lower, h₂, value_digit hbl]
            exact absurd ((ih bytes).mpr h₃) (hnone _ _ _ hh hl)
  | case4 c =>
      rw [decode]
      cases bytes with
      | nil => simp [encode]
      | cons b bytes => simp [encode]

end Hex
