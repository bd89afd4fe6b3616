import Libdeno.Library.BigEndian

/-!
# Libdeno.Library.Framing

**Streams of length-prefixed strings.** A string is written behind its length in big-endian
bytes of a fixed width. A stream of such frames determines the strings, where their lengths fit
the width (`frames_injective`); it does not say where one list of strings ends and the next one
begins. For a list followed by a list of pairs, what it leaves open is exactly whether pairs
from the front of the second list belong to the first (`append_flat_eq_iff`).
-/

namespace Framing

open BigEndian

/-- A string behind its length. -/
def frame (width : Nat) (data : List UInt8) : List UInt8 := toBE width data.length ++ data

/-- Strings one after the other. -/
def frames (width : Nat) (strings : List (List UInt8)) : List UInt8 :=
  strings.flatMap (frame width)

/-- The width is enough for the lengths. -/
def Fits (width : Nat) (strings : List (List UInt8)) : Prop :=
  ∀ data ∈ strings, data.length < 256 ^ width

@[simp] theorem frames_nil (width : Nat) : frames width [] = [] := rfl

@[simp] theorem frames_cons (width : Nat) (data : List UInt8) (strings : List (List UInt8)) :
    frames width (data :: strings) = frame width data ++ frames width strings := rfl

@[simp] theorem frames_append (width : Nat) (xs ys : List (List UInt8)) :
    frames width (xs ++ ys) = frames width xs ++ frames width ys := List.flatMap_append

/-- A frame tells where it ends. -/
theorem frame_append_inj {width : Nat} {x y rest rest' : List UInt8}
    (hx : x.length < 256 ^ width) (hy : y.length < 256 ^ width)
    (h : frame width x ++ rest = frame width y ++ rest') : x = y ∧ rest = rest' := by
  rw [frame, frame, List.append_assoc, List.append_assoc] at h
  obtain ⟨hlength, hdata⟩ := List.append_inj h (by simp)
  have hsame : x.length = y.length := by
    rw [← ofBE_toBE hx, ← ofBE_toBE hy, hlength]
  exact List.append_inj hdata hsame

/-- **The frames determine the strings.** -/
theorem frames_injective {width : Nat} (hwidth : 0 < width) {xs ys : List (List UInt8)}
    (hx : Fits width xs) (hy : Fits width ys) (h : frames width xs = frames width ys) :
    xs = ys := by
  have hne : ∀ data rest, frame width data ++ rest ≠ [] := by
    intro data rest hnil
    have hlength := congrArg List.length hnil
    simp only [frame, List.length_append, length_toBE, List.length_nil] at hlength
    omega
  induction xs generalizing ys with
  | nil =>
      cases ys with
      | nil => rfl
      | cons y ys => exact absurd h.symm (hne y _)
  | cons x xs ih =>
      cases ys with
      | nil => exact absurd h (hne x _)
      | cons y ys =>
          obtain ⟨hxl, hxs⟩ := List.forall_mem_cons.mp hx
          obtain ⟨hyl, hys⟩ := List.forall_mem_cons.mp hy
          obtain ⟨rfl, hrest⟩ := frame_append_inj hxl hyl h
          rw [ih hxs hys hrest]

/-! ### Two lists in one -/

variable {β : Type*}

/-- Pairs, as a list of their components. -/
def flat (pairs : List (β × β)) : List β := pairs.flatMap fun pair => [pair.1, pair.2]

@[simp] theorem flat_nil : flat ([] : List (β × β)) = [] := rfl

@[simp] theorem flat_cons (pair : β × β) (pairs : List (β × β)) :
    flat (pair :: pairs) = pair.1 :: pair.2 :: flat pairs := rfl

@[simp] theorem flat_append (ps qs : List (β × β)) : flat (ps ++ qs) = flat ps ++ flat qs :=
  List.flatMap_append

@[simp] theorem length_flat (pairs : List (β × β)) : (flat pairs).length = 2 * pairs.length := by
  induction pairs with
  | nil => rfl
  | cons pair pairs ih => simp [ih]; omega

/-- What precedes a list of pairs in a list of pairs is itself one. -/
theorem flat_eq_append {ps qs : List (β × β)} {xs : List β} (h : flat ps = xs ++ flat qs) :
    ∃ front, ps = front ++ qs ∧ xs = flat front := by
  induction ps generalizing xs qs with
  | nil =>
      obtain ⟨rfl, hqs⟩ := List.append_eq_nil_iff.mp h.symm
      cases qs with
      | nil => exact ⟨[], rfl, rfl⟩
      | cons q qs => cases hqs
  | cons p ps ih =>
      cases xs with
      | nil =>
          cases qs with
          | nil => cases h
          | cons q qs =>
              simp only [flat_cons, List.nil_append, List.cons.injEq] at h
              obtain ⟨h1, h2, h⟩ := h
              obtain ⟨front, rfl, hfront⟩ := ih (show _ = [] ++ _ from h)
              have hnil : front = [] := by
                have := congrArg List.length hfront
                rw [length_flat, List.length_nil] at this
                exact List.length_eq_zero_iff.mp (by omega)
              exact ⟨[], by rw [hnil, List.nil_append, List.nil_append, Prod.ext h1 h2], rfl⟩
      | cons x xs =>
          cases xs with
          | nil =>
              -- One string before the pairs would leave an odd number of them.
              have := congrArg List.length h
              simp only [length_flat, List.length_cons, List.length_append,
                List.length_nil] at this
              omega
          | cons y xs =>
              simp only [flat_cons, List.cons_append, List.cons.injEq] at h
              obtain ⟨rfl, rfl, h⟩ := h
              obtain ⟨front, rfl, rfl⟩ := ih h
              exact ⟨p :: front, rfl, rfl⟩

/-- The second list starts later in `ys ++ flat qs` than in `xs ++ flat ps`: the first pairs of
the one are the end of the other's strings. -/
def Shifted (xs ys : List β) (ps qs : List (β × β)) : Prop :=
  ∃ front, front ≠ [] ∧ ps = front ++ qs ∧ ys = xs ++ flat front

/-- **What a list of strings and pairs leaves open.** -/
theorem append_flat_eq_iff {xs ys : List β} {ps qs : List (β × β)} :
    xs ++ flat ps = ys ++ flat qs ↔
      (xs = ys ∧ ps = qs) ∨ Shifted xs ys ps qs ∨ Shifted ys xs qs ps := by
  have hside : ∀ {xs ys middle : List β} {ps qs : List (β × β)}, ys = xs ++ middle →
      flat ps = middle ++ flat qs → (xs = ys ∧ ps = qs) ∨ Shifted xs ys ps qs := by
    rintro xs ys middle ps qs rfl h
    obtain ⟨front, rfl, rfl⟩ := flat_eq_append h
    by_cases hfront : front = []
    · exact .inl (by simp [hfront])
    · exact .inr ⟨front, hfront, rfl, rfl⟩
  constructor
  · intro h
    rcases List.append_eq_append_iff.mp h with ⟨middle, hys, hps⟩ | ⟨middle, hxs, hqs⟩
    · exact (hside hys hps).imp_right .inl
    · rcases hside hxs hqs with ⟨rfl, rfl⟩ | hshifted
      · exact .inl ⟨rfl, rfl⟩
      · exact .inr (.inr hshifted)
  · rintro (⟨rfl, rfl⟩ | ⟨front, -, rfl, rfl⟩ | ⟨front, -, rfl, rfl⟩)
    · rfl
    · simp
    · simp

/-- A shift changes the first list. -/
theorem Shifted.ne {xs ys : List β} {ps qs : List (β × β)} (h : Shifted xs ys ps qs) :
    xs ≠ ys := by
  rintro rfl
  obtain ⟨front, hfront, -, hxs⟩ := h
  have := congrArg List.length hxs
  rw [List.length_append, length_flat] at this
  exact hfront (List.length_eq_zero_iff.mp (by omega))

end Framing
