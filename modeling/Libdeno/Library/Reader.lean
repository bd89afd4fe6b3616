import Mathlib.Tactic.Common

/-!
# Libdeno.Library.Reader

**Readers over a scheduled stream.** A reader takes symbols from the front of a
stream while the environment decides, turn by turn, how much of it arrives: a
`Wire` is the rest of the stream together with the rest of that schedule. A
reader answers a value or an error, or has not returned yet when the schedule
runs out (`none`).

Two judgments describe a reader, and each has one rule per monad operation, so a
format read field by field is verified field by field:

* `Consumes m R` — under *every* schedule a run that answers has taken a prefix
  of the stream, and `R` relates that prefix to the answer, value or error;
* `Delivers m xs r` — under every *clean* schedule a stream that starts with `xs`
  is answered with `r` and exactly `xs` is taken; and if the schedule has at least
  `xs.length` moving turns, the reader does answer.

The stream symbols, the errors, the turns and what makes a turn clean or moving
are parameters.
-/

namespace Reader

/-- The rest of a stream and the rest of its schedule. -/
structure Wire (β τ : Type) where
  pending : List β
  turns : List τ

/-- A reader: no answer while it waits, otherwise a value or an error. -/
abbrev ReadM (ε β τ : Type) := ExceptT ε (StateT (Wire β τ) Option)

variable {ε β τ α γ : Type}

/-- Run a reader on a wire. -/
def ReadM.on (m : ReadM ε β τ α) (wire : Wire β τ) : Option (Except ε α × Wire β τ) :=
  m.run wire

@[simp] theorem on_pure (v : α) (wire : Wire β τ) :
    ReadM.on (pure v : ReadM ε β τ α) wire = some (.ok v, wire) := rfl

@[simp] theorem on_throw (e : ε) (wire : Wire β τ) :
    ReadM.on (throw e : ReadM ε β τ α) wire = some (.error e, wire) := rfl

theorem on_bind (m : ReadM ε β τ α) (f : α → ReadM ε β τ γ) (wire : Wire β τ) :
    ReadM.on (m >>= f) wire =
      match ReadM.on m wire with
      | none => none
      | some (.error e, wire') => some (.error e, wire')
      | some (.ok v, wire') => ReadM.on (f v) wire' := by
  change (ExceptT.bind m f).run wire = _
  simp only [ReadM.on, ExceptT.bind, ExceptT.mk, ExceptT.run]
  change ((m : StateT (Wire β τ) Option (Except ε α)) wire).bind _ = _
  cases h : (m : StateT (Wire β τ) Option (Except ε α)) wire with
  | none => rfl
  | some result =>
      obtain ⟨r, wire'⟩ := result
      cases r <;> rfl

/-! ### What a run consumed -/

/-- Whatever the schedule does, a run that answers has taken a prefix of the
stream that `R` relates to the answer. -/
def Consumes (m : ReadM ε β τ α) (R : List β → Except ε α → Prop) : Prop :=
  ∀ wire r wire', m.on wire = some (r, wire') →
    ∃ taken, wire.pending = taken ++ wire'.pending ∧ R taken r

namespace Consumes

theorem pure {v : α} {R : List β → Except ε α → Prop} (h : R [] (.ok v)) :
    Consumes (pure v : ReadM ε β τ α) R := by
  intro wire r wire' hrun
  obtain ⟨rfl, rfl⟩ := by simpa using hrun
  exact ⟨[], rfl, h⟩

theorem throw {e : ε} {R : List β → Except ε α → Prop} (h : R [] (.error e)) :
    Consumes (throw e : ReadM ε β τ α) R := by
  intro wire r wire' hrun
  obtain ⟨rfl, rfl⟩ := by simpa using hrun
  exact ⟨[], rfl, h⟩

/-- Sequencing: what the first reader took goes in front of what the second one
takes, and an error of the first ends the run. -/
theorem bind {m : ReadM ε β τ α} {f : α → ReadM ε β τ γ}
    {P : List β → Except ε α → Prop} {R : List β → Except ε γ → Prop}
    (first : Consumes m P)
    (failed : ∀ taken e, P taken (.error e) → R taken (.error e))
    (second : ∀ taken v, P taken (.ok v) →
      Consumes (f v) fun more r => R (taken ++ more) r) :
    Consumes (m >>= f) R := by
  intro wire r wire'' h
  rw [on_bind] at h
  split at h
  · cases h
  · next e wire' hrun =>
    obtain ⟨rfl, rfl⟩ := by simpa using h
    obtain ⟨taken, htaken, hP⟩ := first _ _ _ hrun
    exact ⟨taken, htaken, failed taken e hP⟩
  · next v wire' hrun =>
    obtain ⟨taken, htaken, hP⟩ := first _ _ _ hrun
    obtain ⟨more, hmore, hR⟩ := second taken v hP _ _ _ h
    exact ⟨taken ++ more, by rw [htaken, hmore, List.append_assoc], hR⟩

end Consumes

/-! ### Clean schedules -/

section Clean

variable {clean : τ → Prop} {moving : τ → Bool}

/-- Under a clean schedule, `xs` at the front of the stream is answered with `r`:
any answer is `r` and leaves exactly the rest, on a tail of the schedule that has
lost at most one moving turn for each symbol of `xs`; and with enough moving turns
there is an answer. -/
def Delivers (clean : τ → Prop) (moving : τ → Bool) (m : ReadM ε β τ α) (xs : List β)
    (r : Except ε α) : Prop :=
  ∀ turns rest, (∀ turn ∈ turns, clean turn) →
    (∀ r' wire', m.on ⟨xs ++ rest, turns⟩ = some (r', wire') →
      r' = r ∧ wire'.pending = rest ∧ wire'.turns <:+ turns ∧
        turns.countP moving ≤ wire'.turns.countP moving + xs.length) ∧
    (xs.length ≤ turns.countP moving → m.on ⟨xs ++ rest, turns⟩ ≠ none)

namespace Delivers

theorem pure (v : α) : Delivers clean moving (pure v : ReadM ε β τ α) [] (.ok v) := by
  intro turns rest hclean
  refine ⟨fun r wire' h => ?_, fun _ => by simp⟩
  obtain ⟨rfl, rfl⟩ := by simpa using h
  exact ⟨rfl, rfl, List.suffix_refl _, Nat.le_refl _⟩

theorem throw (e : ε) :
    Delivers clean moving (throw e : ReadM ε β τ α) [] (.error e) := by
  intro turns rest hclean
  refine ⟨fun r wire' h => ?_, fun _ => by simp⟩
  obtain ⟨rfl, rfl⟩ := by simpa using h
  exact ⟨rfl, rfl, List.suffix_refl _, Nat.le_refl _⟩

theorem bind {m : ReadM ε β τ α} {f : α → ReadM ε β τ γ} {xs ys : List β} {v : α}
    {r : Except ε γ} (hm : Delivers clean moving m xs (.ok v))
    (hf : Delivers clean moving (f v) ys r) :
    Delivers clean moving (m >>= f) (xs ++ ys) r := by
  intro turns rest hclean
  obtain ⟨answered, returns⟩ := hm turns (ys ++ rest) hclean
  rw [List.append_assoc, on_bind]
  cases hrun : m.on ⟨xs ++ (ys ++ rest), turns⟩ with
  | none =>
      refine ⟨fun r wire' h => (nomatch h), fun enough => absurd hrun (returns ?_)⟩
      rw [List.length_append] at enough
      omega
  | some result =>
      obtain ⟨r, ⟨pending, turns'⟩⟩ := result
      obtain ⟨rfl, rfl, hsuffix, hcount⟩ := answered _ _ hrun
      obtain ⟨answered', returns'⟩ := hf turns' rest fun turn hturn =>
        hclean turn (hsuffix.mem hturn)
      refine ⟨fun r wire' h => ?_, fun enough => returns' ?_⟩
      · obtain ⟨hr, hrest, hsuffix', hcount'⟩ := answered' r wire' h
        refine ⟨hr, hrest, hsuffix'.trans hsuffix, ?_⟩
        simp only [List.length_append] at hcount hcount' ⊢
        omega
      · rw [List.length_append] at enough
        simp only at hcount
        omega

/-- A schedule may be asked to be clean in a stronger sense. -/
theorem mono {clean' : τ → Prop} {m : ReadM ε β τ α} {xs : List β} {r : Except ε α}
    (h : Delivers clean moving m xs r) (imp : ∀ turn, clean' turn → clean turn) :
    Delivers clean' moving m xs r :=
  fun turns rest hclean => h turns rest fun turn hturn => imp turn (hclean turn hturn)

end Delivers

end Clean

end Reader
