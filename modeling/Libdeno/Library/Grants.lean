import Mathlib

/-!
# Libdeno.Library.Grants

**Grants as a semilattice.** A grant is nothing, a set of things, or everything, ordered by
how much it permits. Joining grants forgets their order, so a grant that is collected step by
step depends on what was collected alone.
-/

namespace Grants

variable {α : Type*}

/-- Nothing, some things, or everything. -/
abbrev Grant (α : Type*) := WithBot (WithTop (Set α))

/-- Just these things. -/
def only (S : Set α) : Grant α := ((S : WithTop (Set α)) : Grant α)

/-- The thing is granted. -/
def Permits (g : Grant α) (a : α) : Prop := only {a} ≤ g

theorem eq_bot_or_top_or_only (g : Grant α) : g = ⊥ ∨ g = ⊤ ∨ ∃ S, g = only S := by
  cases g using WithBot.recBotCoe with
  | bot => exact .inl rfl
  | coe g =>
      cases g using WithTop.recTopCoe with
      | top => exact .inr (.inl rfl)
      | coe S => exact .inr (.inr ⟨S, rfl⟩)

@[simp] theorem only_ne_bot (S : Set α) : only S ≠ ⊥ := WithBot.coe_ne_bot

@[simp] theorem only_ne_top (S : Set α) : only S ≠ ⊤ := fun h =>
  WithTop.coe_ne_top (WithBot.coe_injective h)

@[simp] theorem only_sup (S T : Set α) : only S ⊔ only T = only (S ∪ T) := by
  rw [only, only, ← WithBot.coe_sup, ← WithTop.coe_sup]
  rfl

@[simp] theorem permits_bot (a : α) : ¬ Permits ⊥ a := by
  intro h
  exact only_ne_bot _ (le_bot_iff.mp h)

@[simp] theorem permits_top (a : α) : Permits ⊤ a := le_top

@[simp] theorem permits_only (S : Set α) (a : α) : Permits (only S) a ↔ a ∈ S := by
  rw [Permits, only, only, WithBot.coe_le_coe, WithTop.coe_le_coe]
  exact Set.singleton_subset_iff

/-- One of two grants permits what they permit together. -/
@[simp] theorem permits_sup (g h : Grant α) (a : α) :
    Permits (g ⊔ h) a ↔ Permits g a ∨ Permits h a := by
  rcases eq_bot_or_top_or_only g with rfl | rfl | ⟨S, rfl⟩
  · simp
  · simp
  · rcases eq_bot_or_top_or_only h with rfl | rfl | ⟨T, rfl⟩
    · simp
    · simp
    · simp

/-- Everything is granted only by a grant of everything. -/
theorem sup_eq_top (g h : Grant α) : g ⊔ h = ⊤ ↔ g = ⊤ ∨ h = ⊤ := by
  rcases eq_bot_or_top_or_only g with rfl | rfl | ⟨S, rfl⟩
  · simp
  · simp
  · rcases eq_bot_or_top_or_only h with rfl | rfl | ⟨T, rfl⟩
    · simp
    · simp
    · simp

/-! ### Joining a list -/

/-- All of them together. -/
def join (gs : List (Grant α)) : Grant α := gs.foldr (· ⊔ ·) ⊥

@[simp] theorem join_nil : join ([] : List (Grant α)) = ⊥ := rfl

@[simp] theorem join_cons (g : Grant α) (gs : List (Grant α)) :
    join (g :: gs) = g ⊔ join gs := rfl

theorem join_perm {gs hs : List (Grant α)} (h : gs.Perm hs) : join gs = join hs :=
  h.foldr_eq' (fun g _ g' _ acc => sup_left_comm g' g acc) ⊥

theorem join_eq_bot {gs : List (Grant α)} : join gs = ⊥ ↔ ∀ g ∈ gs, g = ⊥ := by
  induction gs with
  | nil => simp
  | cons g gs ih => simp [ih]

theorem join_eq_top {gs : List (Grant α)} : join gs = ⊤ ↔ ⊤ ∈ gs := by
  induction gs with
  | nil => simp
  | cons g gs ih => rw [join_cons, sup_eq_top, ih, List.mem_cons, eq_comm]

theorem permits_join {gs : List (Grant α)} {a : α} :
    Permits (join gs) a ↔ ∃ g ∈ gs, Permits g a := by
  induction gs with
  | nil => simp
  | cons g gs ih => simp [ih]

end Grants
