import Mathlib.Data.Char
import Mathlib.Data.List.Forall2
import Mathlib.Data.List.Lex
import Mathlib.Data.List.Nodup
import Mathlib.Data.List.Perm.Basic
import Mathlib.Data.List.Sort
import Mathlib.Tactic.Common

/-!
# Libdeno.Library.JsonValue

**JSON values up to the order of their members.** A value keeps the members of an object in
some order; `Reordered` relates the values that differ in nothing but this order, at any depth.
`sorted` puts the members of all objects in the order of their keys, and so picks one value of
each class: where keys are distinct, two values are sorted to the same value exactly when one
is a reordering of the other (`sorted_eq_iff`).

The type of numbers is a parameter. Nothing here mentions a particular program.
-/

inductive JsonValue (ν : Type*) where
  | null
  | bool (value : Bool)
  | number (value : ν)
  | string (text : List Char)
  | array (values : List (JsonValue ν))
  | object (members : List (List Char × JsonValue ν))

namespace JsonValue

variable {ν : Type*}

/-- Induction, with the hypothesis for all elements and all members. -/
@[induction_eliminator]
theorem induction {P : JsonValue ν → Prop} (null : P .null) (bool : ∀ value, P (.bool value))
    (number : ∀ value, P (.number value)) (string : ∀ text, P (.string text))
    (array : ∀ values, (∀ v ∈ values, P v) → P (.array values))
    (object : ∀ members, (∀ m ∈ members, P m.2) → P (.object members)) (v : JsonValue ν) : P v :=
  @JsonValue.rec ν P (fun values => ∀ v ∈ values, P v) (fun members => ∀ m ∈ members, P m.2)
    (fun m => P m.2) null bool number string array object
    (List.forall_mem_nil _) (fun _ _ hv hvs => List.forall_mem_cons.mpr ⟨hv, hvs⟩)
    (List.forall_mem_nil _) (fun _ _ hm hms => List.forall_mem_cons.mpr ⟨hm, hms⟩)
    (fun _ _ hv => hv) v

/-! ### The order of members -/

/-- Two members with one key. -/
inductive SameKey (R : JsonValue ν → JsonValue ν → Prop) :
    List Char × JsonValue ν → List Char × JsonValue ν → Prop
  | mk {key : List Char} {v w : JsonValue ν} : R v w → SameKey R (key, v) (key, w)

/-- Equal up to the order of the members of objects, at every depth. -/
inductive Reordered : JsonValue ν → JsonValue ν → Prop
  | null : Reordered .null .null
  | bool (value : Bool) : Reordered (.bool value) (.bool value)
  | number (value : ν) : Reordered (.number value) (.number value)
  | string (text : List Char) : Reordered (.string text) (.string text)
  | array {vs ws : List (JsonValue ν)} :
      List.Forall₂ Reordered vs ws → Reordered (.array vs) (.array ws)
  | object {ms ns ps : List (List Char × JsonValue ν)} :
      List.Forall₂ (SameKey Reordered) ms ps → ps.Perm ns → Reordered (.object ms) (.object ns)

/-- No object has two members with one key. -/
inductive Distinct : JsonValue ν → Prop
  | null : Distinct .null
  | bool (value : Bool) : Distinct (.bool value)
  | number (value : ν) : Distinct (.number value)
  | string (text : List Char) : Distinct (.string text)
  | array {vs : List (JsonValue ν)} : (∀ v ∈ vs, Distinct v) → Distinct (.array vs)
  | object {ms : List (List Char × JsonValue ν)} : (ms.map Prod.fst).Nodup →
      (∀ m ∈ ms, Distinct m.2) → Distinct (.object ms)

/-! ### Sorting -/

/-- Members in the order of their keys. -/
def sortMembers (members : List (List Char × JsonValue ν)) : List (List Char × JsonValue ν) :=
  members.insertionSort fun m n => m.1 ≤ n.1

mutual

/-- The members of all objects in the order of their keys. -/
def sorted : JsonValue ν → JsonValue ν
  | .array values => .array (sortedValues values)
  | .object members => .object (sortMembers (sortedMembers members))
  | value => value
termination_by structural v => v

def sortedValues : List (JsonValue ν) → List (JsonValue ν)
  | [] => []
  | value :: values => sorted value :: sortedValues values
termination_by structural vs => vs

def sortedMembers : List (List Char × JsonValue ν) → List (List Char × JsonValue ν)
  | [] => []
  | (key, value) :: members => (key, sorted value) :: sortedMembers members
termination_by structural ms => ms

end

/-- What sorting does to a member. -/
def sortedMember (m : List Char × JsonValue ν) : List Char × JsonValue ν := (m.1, sorted m.2)

theorem sortedValues_eq (values : List (JsonValue ν)) :
    sortedValues values = values.map sorted := by
  induction values with
  | nil => rfl
  | cons v vs ih => rw [sortedValues, ih, List.map_cons]

theorem sortedMembers_eq (members : List (List Char × JsonValue ν)) :
    sortedMembers members = members.map sortedMember := by
  induction members with
  | nil => rfl
  | cons m ms ih => rw [sortedMembers, ih, List.map_cons, sortedMember]

theorem sorted_array (values : List (JsonValue ν)) :
    sorted (.array values) = .array (values.map sorted) := by
  rw [sorted, sortedValues_eq]

theorem sorted_object (members : List (List Char × JsonValue ν)) :
    sorted (.object members) = .object (sortMembers (members.map sortedMember)) := by
  rw [sorted, sortedMembers_eq]

variable {ms ns : List (List Char × JsonValue ν)}

theorem sortMembers_perm (ms : List (List Char × JsonValue ν)) : (sortMembers ms).Perm ms :=
  List.perm_insertionSort _ ms

theorem sortMembers_pairwise (ms : List (List Char × JsonValue ν)) :
    (sortMembers ms).Pairwise fun m n => m.1 ≤ n.1 := by
  have : IsTrans (List Char × JsonValue ν) fun m n => m.1 ≤ n.1 := ⟨fun _ _ _ => le_trans⟩
  have : Std.Total fun m n : List Char × JsonValue ν => m.1 ≤ n.1 :=
    ⟨fun _ _ => le_total _ _⟩
  exact List.pairwise_insertionSort _ ms

/-- Distinct keys are in strict order. -/
theorem sortMembers_strict (nodup : (ms.map Prod.fst).Nodup) :
    (sortMembers ms).Pairwise fun m n => m.1 < n.1 := by
  have hne : ((sortMembers ms).map Prod.fst).Nodup :=
    ((sortMembers_perm ms).map Prod.fst).nodup_iff.mpr nodup
  rw [List.Nodup, List.pairwise_map] at hne
  exact ((sortMembers_pairwise ms).and hne).imp fun h => lt_of_le_of_ne h.1 h.2

theorem sortMembers_eq_self (h : ms.Pairwise fun m n => m.1 ≤ n.1) : sortMembers ms = ms :=
  h.insertionSort_eq

theorem perm_of_sortMembers_eq (h : sortMembers ms = sortMembers ns) : ms.Perm ns :=
  (sortMembers_perm ms).symm.trans (h ▸ sortMembers_perm ns)

/-- Of distinct keys there is one order. -/
theorem sortMembers_eq_of_perm (nodup : (ms.map Prod.fst).Nodup) (perm : ms.Perm ns) :
    sortMembers ms = sortMembers ns := by
  have hms := sortMembers_perm ms
  have hns := (sortMembers_perm ns).trans perm.symm
  refine List.Perm.eq_of_pairwise ?_ (sortMembers_pairwise ms) (sortMembers_pairwise ns)
    (hms.trans hns.symm)
  intro m n hm hn hle hge
  exact List.inj_on_of_nodup_map nodup (hms.mem_iff.mp hm) (hns.mem_iff.mp hn)
    (le_antisymm hle hge)

@[simp] theorem keys_sortedMember (ms : List (List Char × JsonValue ν)) :
    (ms.map sortedMember).map Prod.fst = ms.map Prod.fst := by
  rw [List.map_map]
  rfl

/-- The keys of a sorted object are those it had. -/
theorem keys_sorted_perm (ms : List (List Char × JsonValue ν)) :
    ((sortMembers (ms.map sortedMember)).map Prod.fst).Perm (ms.map Prod.fst) := by
  rw [← keys_sortedMember ms]
  exact (sortMembers_perm _).map Prod.fst

/-- Sorting again changes nothing. -/
theorem sorted_sorted (v : JsonValue ν) : sorted (sorted v) = sorted v := by
  induction v with
  | array values ih =>
      rw [sorted_array, sorted_array, List.map_map]
      exact congrArg _ (List.map_congr_left ih)
  | object members ih =>
      rw [sorted_object, sorted_object]
      have hfixed : ∀ m ∈ sortMembers (members.map sortedMember), sortedMember m = m := by
        intro m hm
        obtain ⟨n, hn, rfl⟩ := List.mem_map.mp ((sortMembers_perm _).mem_iff.mp hm)
        exact congrArg (Prod.mk n.1) (ih n hn)
      rw [List.map_congr_left hfixed, List.map_id']
      exact congrArg _ (sortMembers_eq_self (sortMembers_pairwise _))
  | _ => rfl

theorem Distinct.sorted {v : JsonValue ν} (h : v.Distinct) : v.sorted.Distinct := by
  induction v with
  | array values ih =>
      cases h with
      | array hvalues =>
          rw [sorted_array]
          refine .array (List.forall_mem_map.mpr fun v hv => ?_)
          exact ih v hv (hvalues v hv)
  | object members ih =>
      cases h with
      | object hnodup hmembers =>
          rw [sorted_object]
          refine .object ((keys_sorted_perm members).nodup_iff.mpr hnodup) fun m hm => ?_
          obtain ⟨n, hn, rfl⟩ := List.mem_map.mp ((sortMembers_perm _).mem_iff.mp hm)
          exact ih n hn (hmembers n hn)
  | _ => exact h

/-! ### Reorderings and sorted values -/

section Forall₂

variable {α β γ : Type*} {f : α → γ} {g : β → γ} {R : α → β → Prop}

theorem forall₂_of_map_eq {xs : List α} {ys : List β} (h : ∀ x ∈ xs, ∀ y ∈ ys, f x = g y → R x y)
    (heq : xs.map f = ys.map g) : List.Forall₂ R xs ys := by
  induction xs generalizing ys with
  | nil =>
      obtain rfl := List.map_eq_nil_iff.mp heq.symm
      exact .nil
  | cons x xs ih =>
      cases ys with
      | nil => cases heq
      | cons y ys =>
          obtain ⟨hhead, htail⟩ := List.cons_eq_cons.mp heq
          refine .cons (h x List.mem_cons_self y List.mem_cons_self hhead) (ih ?_ htail)
          exact fun x' hx y' hy =>
            h x' (List.mem_cons_of_mem _ hx) y' (List.mem_cons_of_mem _ hy)

theorem map_eq_of_forall₂ {xs : List α} {ys : List β} (related : List.Forall₂ R xs ys)
    (h : ∀ x ∈ xs, ∀ y ∈ ys, R x y → f x = g y) : xs.map f = ys.map g := by
  induction related with
  | nil => rfl
  | @cons x y xs ys hxy _ ih =>
      rw [List.map_cons, List.map_cons, h x List.mem_cons_self y List.mem_cons_self hxy,
        ih fun x' hx y' hy => h x' (List.mem_cons_of_mem _ hx) y' (List.mem_cons_of_mem _ hy)]

/-- A permutation of images is the image of a permutation. -/
theorem exists_perm_of_map {xs : List γ} {ys : List β} (h : xs.Perm (ys.map g)) :
    ∃ zs : List β, zs.Perm ys ∧ xs = zs.map g := by
  have hys : List.Forall₂ (fun x y => x = g y) (ys.map g) ys := by
    rw [List.forall₂_map_left_iff]
    exact List.forall₂_same.mpr fun _ _ => rfl
  obtain ⟨zs, hzs, hperm⟩ := List.perm_comp_forall₂ h hys
  refine ⟨zs, hperm, ?_⟩
  rw [← List.map_id xs]
  exact map_eq_of_forall₂ hzs fun _ _ _ _ heq => heq

end Forall₂

theorem reordered_of_sorted_eq {v w : JsonValue ν} (h : sorted v = sorted w) : Reordered v w := by
  induction v generalizing w with
  | null =>
      cases w <;> simp only [sorted, reduceCtorEq] at h
      exact .null
  | bool value =>
      cases w <;> simp only [sorted, reduceCtorEq] at h
      exact h ▸ .bool value
  | number value =>
      cases w <;> simp only [sorted, reduceCtorEq] at h
      exact h ▸ .number value
  | string text =>
      cases w <;> simp only [sorted, reduceCtorEq] at h
      exact h ▸ .string text
  | array values ih =>
      cases w <;> simp only [sorted, reduceCtorEq] at h
      rw [JsonValue.array.injEq, sortedValues_eq, sortedValues_eq] at h
      exact .array (forall₂_of_map_eq (fun v hv w _ heq => ih v hv heq) h)
  | object members ih =>
      cases w <;> simp only [sorted, reduceCtorEq] at h
      rw [JsonValue.object.injEq, sortedMembers_eq, sortedMembers_eq] at h
      -- The members of one value, in the order of the other's.
      obtain ⟨ps, hperm, hmap⟩ := exists_perm_of_map (perm_of_sortMembers_eq h)
      refine .object (forall₂_of_map_eq (fun m hm p _ heq => ?_) hmap) hperm
      obtain ⟨hkey, hvalue⟩ := Prod.mk.inj heq
      obtain ⟨key, value⟩ := m
      obtain ⟨key', value'⟩ := p
      obtain rfl : key = key' := hkey
      exact .mk (ih _ hm hvalue)

theorem Reordered.sorted_eq {v w : JsonValue ν} (h : Reordered v w) (distinct : v.Distinct) :
    sorted v = sorted w := by
  induction v generalizing w with
  | array values ih =>
      cases h with
      | array hvalues =>
          cases distinct with
          | array hdistinct =>
              rw [sorted_array, sorted_array]
              exact congrArg _ (map_eq_of_forall₂ hvalues fun v hv w _ hr =>
                ih v hv hr (hdistinct v hv))
  | object members ih =>
      cases h with
      | @object _ ns ps hmembers hperm =>
          cases distinct with
          | object hnodup hdistinct =>
              -- Behind the sorting of the values only the order of the members differs.
              have hmap : members.map sortedMember = ps.map sortedMember := by
                refine map_eq_of_forall₂ hmembers fun m hm p _ hr => ?_
                cases hr with
                | @mk key v w hvalue =>
                    exact congrArg (Prod.mk key) (ih _ hm hvalue (hdistinct _ hm))
              rw [sorted_object, sorted_object]
              refine congrArg _ (sortMembers_eq_of_perm ?_ (hmap ▸ hperm.map sortedMember))
              rw [keys_sortedMember]
              exact hnodup
  | null => cases h; rfl
  | bool value => cases h; rfl
  | number value => cases h; rfl
  | string text => cases h; rfl

/-- Sorting picks one value of each class of reorderings. -/
theorem sorted_eq_iff {v w : JsonValue ν} (distinct : v.Distinct) :
    sorted v = sorted w ↔ Reordered v w :=
  ⟨reordered_of_sorted_eq, fun h => h.sorted_eq distinct⟩

end JsonValue
