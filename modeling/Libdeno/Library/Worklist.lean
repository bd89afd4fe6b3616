import Mathlib.Logic.Relation
import Mathlib.Data.List.Nodup
import Mathlib.Data.List.Basic

/-!
# Libdeno.Library.Worklist

**A worklist search of a graph.** Nodes are taken off a stack; one that was not found before is
found now, and its successors are put on the stack, the last one on top. Only finitely many
nodes have successors, so the search ends on every graph, cyclic ones included: each step finds
one of those or makes the stack shorter. It finds each node that can be reached, once
(`mem_reachable_iff`).
-/

namespace Worklist

open Relation

/-- Successors, of which only the nodes among the keys have any. -/
structure Graph (α : Type*) where
  keys : List α
  succ : α → List α
  succ_eq_nil : ∀ a, a ∉ keys → succ a = []

namespace Graph

variable {α : Type*}

/-- A stack with nodes put on it one after the other. -/
def push (nodes pending : List α) : List α := nodes.reverse ++ pending

@[simp] theorem mem_push {nodes pending : List α} {a : α} :
    a ∈ push nodes pending ↔ a ∈ nodes ∨ a ∈ pending := by simp [push]

@[simp] theorem push_nil (pending : List α) : push [] pending = pending := rfl

variable [DecidableEq α] (g : Graph α)

/-- The search, from what was found and what is pending. -/
def search (found : List α) : List α → List α
  | [] => found
  | a :: pending =>
      if a ∈ found then search found pending
      else search (found ++ [a]) (push (g.succ a) pending)
termination_by pending => ((g.keys.filter (· ∉ found)).length, pending.length)
decreasing_by
  · exact Prod.Lex.right _ (by simp)
  · rename_i hnew
    by_cases ha : a ∈ g.keys
    · -- A key that was not found is found now.
      refine Prod.Lex.left _ _ ?_
      have hsub : (g.keys.filter (· ∉ found ++ [a])).length =
          ((g.keys.filter (· ∉ found)).filter (· ≠ a)).length := by
        rw [List.filter_filter]
        congr 2
        funext b
        simp [and_comm]
      rw [hsub]
      exact List.length_filter_lt_length_iff_exists.mpr ⟨a, by simp [ha, hnew], by simp⟩
    · -- Other nodes have no successors.
      rw [g.succ_eq_nil a ha]
      have hsame : g.keys.filter (· ∉ found ++ [a]) = g.keys.filter (· ∉ found) := by
        refine List.filter_congr fun b mem => ?_
        have hne : b ≠ a := by
          rintro rfl
          exact ha mem
        simp [hne]
      rw [hsame]
      exact Prod.Lex.right _ (by simp)

/-- The nodes that can be reached, in the order they are found. -/
def reachable (start : α) : List α := g.search [] [start]

/-- One edge. -/
def Edge (a b : α) : Prop := b ∈ g.succ a

variable {g}

/-- What was found or is pending is found in the end. -/
theorem subset_search {found pending : List α} {a : α} (h : a ∈ found ∨ a ∈ pending) :
    a ∈ g.search found pending := by
  induction found, pending using search.induct g with
  | case1 found =>
      rw [search]
      exact h.resolve_right List.not_mem_nil
  | case2 found b pending hfound ih =>
      rw [search, if_pos hfound]
      refine ih ?_
      rcases h with h | h
      · exact .inl h
      · rcases List.mem_cons.mp h with rfl | h
        · exact .inl hfound
        · exact .inr h
  | case3 found b pending hnew ih =>
      rw [search, if_neg hnew]
      refine ih ?_
      rcases h with h | h
      · exact .inl (List.mem_append_left _ h)
      · rcases List.mem_cons.mp h with rfl | h
        · exact .inl (List.mem_append_right _ List.mem_cons_self)
        · exact .inr (mem_push.mpr (.inr h))

/-- Nothing is found twice. -/
theorem search_nodup {found pending : List α} (h : found.Nodup) :
    (g.search found pending).Nodup := by
  induction found, pending using search.induct g with
  | case1 found =>
      rw [search]
      exact h
  | case2 found b pending hfound ih =>
      rw [search, if_pos hfound]
      exact ih h
  | case3 found b pending hnew ih =>
      rw [search, if_neg hnew]
      refine ih (h.append (List.nodup_singleton b) ?_)
      simpa using hnew

/-- What is found was found before or can be reached from what was pending. -/
theorem search_sound {found pending : List α} {b : α} (h : b ∈ g.search found pending) :
    b ∈ found ∨ ∃ a ∈ pending, ReflTransGen g.Edge a b := by
  induction found, pending using search.induct g with
  | case1 found =>
      rw [search] at h
      exact .inl h
  | case2 found a pending hfound ih =>
      rw [search, if_pos hfound] at h
      exact (ih h).imp_right fun ⟨c, mem, path⟩ => ⟨c, List.mem_cons_of_mem _ mem, path⟩
  | case3 found a pending hnew ih =>
      rw [search, if_neg hnew] at h
      rcases ih h with hin | ⟨c, mem, path⟩
      · rcases List.mem_append.mp hin with hin | hin
        · exact .inl hin
        · rw [List.mem_singleton.mp hin]
          exact .inr ⟨a, List.mem_cons_self, .refl⟩
      · rcases mem_push.mp mem with mem | mem
        · exact .inr ⟨a, List.mem_cons_self, .head mem path⟩
        · exact .inr ⟨c, List.mem_cons_of_mem _ mem, path⟩

/-- The successors of what was found are found or pending. -/
def Closed (g : Graph α) (found pending : List α) : Prop :=
  ∀ a ∈ found, ∀ b ∈ g.succ a, b ∈ found ∨ b ∈ pending

/-- In the end they are found. -/
theorem search_closed {found pending : List α} (h : Closed g found pending) :
    Closed g (g.search found pending) [] := by
  induction found, pending using search.induct g with
  | case1 found =>
      rw [search]
      exact h
  | case2 found a pending hfound ih =>
      rw [search, if_pos hfound]
      refine ih fun b mem c edge => ?_
      rcases h b mem c edge with hc | hc
      · exact .inl hc
      · rcases List.mem_cons.mp hc with rfl | hc
        · exact .inl hfound
        · exact .inr hc
  | case3 found a pending hnew ih =>
      rw [search, if_neg hnew]
      refine ih fun b mem c edge => ?_
      -- What was found keeps its successors, and those of the new element are queued.
      rcases List.mem_append.mp mem with mem | mem
      · rcases h b mem c edge with hc | hc
        · exact .inl (List.mem_append_left _ hc)
        · rcases List.mem_cons.mp hc with rfl | hc
          · exact .inl (List.mem_append_right _ List.mem_cons_self)
          · exact .inr (mem_push.mpr (.inr hc))
      · rw [List.mem_singleton.mp mem] at edge
        exact .inr (mem_push.mpr (.inl edge))

theorem reachable_nodup (start : α) : (g.reachable start).Nodup := search_nodup List.nodup_nil

/-- **The search finds what can be reached.** -/
theorem mem_reachable_iff {start a : α} :
    a ∈ g.reachable start ↔ ReflTransGen g.Edge start a := by
  constructor
  · intro h
    rcases search_sound h with h | ⟨b, mem, path⟩
    · cases h
    · rwa [List.mem_singleton.mp mem] at path
  · intro path
    have hclosed : Closed g (g.reachable start) [] :=
      search_closed fun b mem => absurd mem List.not_mem_nil
    induction path with
    | refl => exact subset_search (.inr List.mem_cons_self)
    | tail _ edge ih => exact (hclosed _ ih _ edge).resolve_right List.not_mem_nil

/-- A set that no edge leaves holds all that can be reached from it. -/
theorem reachable_subset {s : Set α} {start a : α} (hstart : start ∈ s)
    (closed : ∀ a ∈ s, ∀ b, g.Edge a b → b ∈ s) (h : a ∈ g.reachable start) : a ∈ s := by
  have path := mem_reachable_iff.mp h
  induction path with
  | refl => exact hstart
  | tail path edge ih => exact closed _ (ih (mem_reachable_iff.mpr path)) _ edge

/-- Graphs with the same edges out of a set that none of them leaves reach the same from it. -/
theorem reachable_perm {h : Graph α} {s : Set α} {start : α} (hstart : start ∈ s)
    (closed : ∀ a ∈ s, ∀ b, g.Edge a b → b ∈ s)
    (same : ∀ a ∈ s, ∀ b, g.Edge a b ↔ h.Edge a b) :
    (g.reachable start).Perm (h.reachable start) := by
  refine (List.perm_ext_iff_of_nodup (reachable_nodup _) (reachable_nodup _)).mpr fun a => ?_
  rw [mem_reachable_iff, mem_reachable_iff]
  constructor
  · intro path
    induction path with
    | refl => exact .refl
    | tail path edge ih =>
        have hin := reachable_subset hstart closed (mem_reachable_iff.mpr path)
        exact ih.tail ((same _ hin _).mp edge)
  · intro path
    induction path with
    | refl => exact .refl
    | tail _ edge ih =>
        have hin := reachable_subset hstart closed (mem_reachable_iff.mpr ih)
        exact ih.tail ((same _ hin _).mpr edge)

end Graph

end Worklist
