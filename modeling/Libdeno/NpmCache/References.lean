import Mathlib
import Libdeno.Snapshot.Table

/-!
# Libdeno.NpmCache.References

**The environment variables an npmrc text refers to.** `referenced_env_names` looks for the
next `$` with a brace, takes the text up to the next closing brace for a name, and goes on
behind that brace. A reference is found exactly where every opening in front of it is closed
in front of it: an opening that is closed by the brace of a reference swallows the reference.
-/

namespace Libdeno.NpmCache

open Lines
open Snapshot (Str lit)

/-- What opens a reference. -/
def opening : Str := ['$', '\x7b']

/-- The names the scanner accepts. -/
def isReferenceName (name : Str) : Bool :=
  !name.isEmpty && !(name.contains '$' || name.contains '\x7b' || name.contains '\\')

theorem length_after_opening {text before after : Str}
    (h : splitOnceText opening text = some (before, after)) : after.length < text.length := by
  rw [(splitOnceText_some h).1]
  simp only [opening, List.length_append, List.length_cons, List.length_nil]
  omega

theorem length_after_close {text name after : Str}
    (h : splitOnce '\x7d' text = some (name, after)) : after.length < text.length := by
  rw [(splitOnce_some h).1]
  simp only [List.length_append, List.length_cons]
  omega

/-- `referenced_env_names`, of the text of the file. -/
def referencedEnvNames (text : Str) : List Str :=
  match _hopen : splitOnceText opening text with
  | none => []
  | some (_, rest) =>
      match _hclose : splitOnce '\x7d' rest with
      | none => []
      | some (name, rest') =>
          if isReferenceName name then name :: referencedEnvNames rest'
          else referencedEnvNames rest'
termination_by text.length
decreasing_by
  all_goals exact (length_after_close _hclose).trans (length_after_opening _hopen)

/-! ### What is a reference -/

/-- A name that may be referred to: not empty, without dollar sign, braces and backslash. -/
def ValidName (name : Str) : Prop :=
  name ≠ [] ∧ '$' ∉ name ∧ '\x7b' ∉ name ∧ '\x7d' ∉ name ∧ '\\' ∉ name

/-- A reference to a name. -/
def reference (name : Str) : Str := opening ++ (name ++ ['\x7d'])

/-- A text contains a reference to a name. -/
def Referenced (text name : Str) : Prop :=
  ValidName name ∧ ∃ before after, text = before ++ (reference name ++ after)

/-- Every opening in a text is closed in it. -/
def Closed (text : Str) : Prop :=
  ∀ before after, text = before ++ (opening ++ after) → '\x7d' ∈ after

/-- A text contains a reference that no opening in front of it swallows. -/
def Visible (text name : Str) : Prop :=
  ValidName name ∧ ∃ before after, text = before ++ (reference name ++ after) ∧ Closed before

theorem isReferenceName_iff {name : Str} (h : '\x7d' ∉ name) :
    isReferenceName name = true ↔ ValidName name := by
  simp only [isReferenceName, ValidName, Bool.and_eq_true, Bool.not_eq_true',
    Bool.or_eq_false_iff, List.isEmpty_eq_false_iff, List.contains_eq_mem, decide_eq_false_iff_not,
    ne_eq, h, not_false_eq_true, true_and, and_assoc]

/-! ### One turn of the scanner -/

/-- What was read up to the next opening, in front of an opening anywhere. -/
theorem first_opening {text skipped rest : Str}
    (h : splitOnceText opening text = some (skipped, rest)) {before after : Str}
    (hother : text = before ++ (opening ++ after)) :
    ∃ between, before = skipped ++ between ∧ opening ++ rest = between ++ (opening ++ after) := by
  obtain ⟨htext, hfirst⟩ := splitOnceText_some h
  have hle := hfirst before after hother
  rcases List.append_eq_append_iff.mp (htext.symm.trans hother) with
    ⟨between, hbefore, hrest⟩ | ⟨between, hskipped, hafter⟩
  · exact ⟨between, hbefore, hrest⟩
  · have hnil : between = [] := by
      have hlength := congrArg List.length hskipped
      rw [List.length_append] at hlength
      exact List.length_eq_zero_iff.mp (by omega)
    rw [hnil, List.append_nil] at hskipped
    rw [hnil, List.nil_append] at hafter
    exact ⟨[], by rw [hskipped, List.append_nil], hafter.symm⟩

/-- An opening is another one, or begins behind it. -/
theorem opening_append {between rest after : Str}
    (h : opening ++ rest = between ++ (opening ++ after)) :
    (between = [] ∧ rest = after) ∨
      ∃ between', between = opening ++ between' ∧ rest = between' ++ (opening ++ after) := by
  match between, h with
  | [], h => exact .inl ⟨rfl, List.append_cancel_left h⟩
  | [x], h =>
      have hsecond : '\x7b' = '$' := by
        injection h with _ h
        injection h
      exact absurd hsecond (by decide)
  | x :: y :: between', h =>
      injection h with hx h
      injection h with hy h
      exact .inr ⟨between', by rw [← hx, ← hy]; rfl, h⟩

theorem splitOnce_eq {sep : Char} {text before after before' after' : Str}
    (h : splitOnce sep text = some (before, after)) (hno : sep ∉ before')
    (heq : text = before' ++ sep :: after') : before = before' ∧ after = after' := by
  rw [heq, splitOnce_append hno] at h
  obtain ⟨rfl, rfl⟩ := Prod.mk.inj (Option.some.inj h)
  exact ⟨rfl, rfl⟩

section Turn

variable {text skipped rest name rest' : Str}

/-- What is visible is read now, or is visible behind what is read. -/
theorem Visible.turn {name' : Str} (hopen : splitOnceText opening text = some (skipped, rest))
    (hclose : splitOnce '\x7d' rest = some (name, rest')) (h : Visible text name') :
    name' = name ∨ Visible rest' name' := by
  obtain ⟨valid, before, after, htext, closed⟩ := h
  have hoccurs : text = before ++ (opening ++ (name' ++ '\x7d' :: after)) := by
    rw [htext, reference]
    simp
  obtain ⟨between, hbefore, hrest⟩ := first_opening hopen hoccurs
  rcases opening_append hrest with ⟨-, hrest⟩ | ⟨between', hbetween, hrest⟩
  · exact .inl (splitOnce_eq hclose valid.2.2.2.1 hrest).1.symm
  · -- The opening is in front of the reference, so it is closed there.
    have hmem : '\x7d' ∈ between' :=
      closed skipped between' (by rw [hbefore, hbetween])
    obtain ⟨swallowed, before', hbetween', hno⟩ := List.eq_append_cons_of_mem hmem
    have hrest : rest =
        swallowed ++ '\x7d' :: (before' ++ (opening ++ (name' ++ '\x7d' :: after))) := by
      rw [hrest, hbetween', List.append_assoc, List.cons_append]
    refine .inr ⟨valid, before', after, ?_, fun a b hab => ?_⟩
    · rw [(splitOnce_eq hclose hno hrest).2, reference]
      simp
    · refine closed (skipped ++ (opening ++ (swallowed ++ '\x7d' :: a))) b ?_
      rw [hbefore, hbetween, hbetween', hab]
      simp

/-- The name that is read is visible, if it is one. -/
theorem visible_read (hopen : splitOnceText opening text = some (skipped, rest))
    (hclose : splitOnce '\x7d' rest = some (name, rest')) (valid : ValidName name) :
    Visible text name := by
  refine ⟨valid, skipped, rest', ?_, fun a b hab => ?_⟩
  · rw [(splitOnceText_some hopen).1, (splitOnce_some hclose).1, reference]
    simp
  · have htext : text = a ++ (opening ++ (b ++ (opening ++ rest))) := by
      rw [(splitOnceText_some hopen).1, hab]
      simp
    obtain ⟨between, ha, -⟩ := first_opening hopen htext
    have hlength := congrArg List.length hab
    simp only [ha, opening, List.length_append, List.length_cons] at hlength
    omega

/-- What is visible behind what is read is visible. -/
theorem Visible.behind {name' : Str}
    (hopen : splitOnceText opening text = some (skipped, rest))
    (hclose : splitOnce '\x7d' rest = some (name, rest')) (h : Visible rest' name') :
    Visible text name' := by
  obtain ⟨valid, before, after, hrest', closed⟩ := h
  have htext := (splitOnceText_some hopen).1
  have hrest := (splitOnce_some hclose).1
  refine ⟨valid, skipped ++ (opening ++ (name ++ '\x7d' :: before)), after, ?_,
    fun a b hab => ?_⟩
  · rw [htext, hrest, hrest']
    simp
  · have hother : text = a ++ (opening ++ (b ++ (reference name' ++ after))) := by
      have hlonger := congrArg (· ++ (reference name' ++ after)) hab
      simp only [List.append_assoc, List.cons_append] at hlonger
      rw [htext, hrest, hrest', hlonger]
    obtain ⟨between, ha, -⟩ := first_opening hopen hother
    rw [ha, List.append_assoc] at hab
    rcases opening_append (List.append_cancel_left hab) with ⟨-, hb⟩ | ⟨between', -, hb⟩
    · rw [← hb]
      exact List.mem_append_right _ List.mem_cons_self
    · rcases List.append_eq_append_iff.mp hb with ⟨a', -, hafter⟩ | ⟨c', -, hafter⟩
      · cases a' with
        | nil => exact absurd (List.cons.inj hafter).1 (by decide)
        | cons x a' => exact closed a' b (List.cons.inj hafter).2
      · match c', hafter with
        | [], hafter => exact absurd (List.cons.inj hafter).1 (by decide)
        | [x], hafter =>
            exact absurd (List.cons.inj (List.cons.inj hafter).2).1 (by decide)
        | x :: y :: c', hafter =>
            have hbehind : b = c' ++ '\x7d' :: before :=
              (List.cons.inj (List.cons.inj hafter).2).2
            rw [hbehind]
            exact List.mem_append_right _ List.mem_cons_self

end Turn

/-- A reference is found exactly where it is visible. -/
theorem mem_referencedEnvNames {text name : Str} :
    name ∈ referencedEnvNames text ↔ Visible text name := by
  induction hlength : text.length using Nat.strongRecOn generalizing text with
  | _ length ih =>
      rw [referencedEnvNames]
      split
      · rename_i hopen
        refine iff_of_false List.not_mem_nil ?_
        rintro ⟨-, before, after, htext, -⟩
        refine splitOnceText_none hopen before (name ++ ['\x7d'] ++ after) ?_
        rw [htext, reference, List.append_assoc]
      · rename_i skipped rest hopen
        have hshorter := length_after_opening hopen
        split
        · rename_i hclose
          refine iff_of_false List.not_mem_nil ?_
          rintro ⟨-, before, after, htext, -⟩
          have hoccurs : text = before ++ (opening ++ (name ++ '\x7d' :: after)) := by
            rw [htext, reference]
            simp
          obtain ⟨between, -, hrest⟩ := first_opening hopen hoccurs
          have hmem : '\x7d' ∈ opening ++ rest := by
            rw [hrest]
            simp
          rcases List.mem_append.mp hmem with hmem | hmem
          · exact absurd hmem (by decide)
          · exact splitOnce_none hclose hmem
        · rename_i name' rest' hclose
          have hshorter' := length_after_close hclose
          have hbehind := ih rest'.length (by omega) rfl
          have hvalid := isReferenceName_iff (splitOnce_some hclose).2
          split
          · rename_i hname
            rw [List.mem_cons, hbehind]
            constructor
            · rintro (rfl | h)
              · exact visible_read hopen hclose (hvalid.mp hname)
              · exact h.behind hopen hclose
            · exact Visible.turn hopen hclose
          · rename_i hname
            rw [hbehind]
            refine ⟨Visible.behind hopen hclose, fun h => ?_⟩
            rcases h.turn hopen hclose with rfl | h'
            · exact absurd (hvalid.mpr h.1) hname
            · exact h'

end Libdeno.NpmCache
