import Mathlib.Data.List.Perm.Basic
import Mathlib.Order.Bounds.Basic
import ScopeComplexity.Proofs.Statistics.Values

namespace ScopeComplexity.Summary

/-- A way to merge summaries two at a time. -/
inductive Grouping (α : Type) where
  | single (s : Summary α)
  | both (left right : Grouping α)

namespace Grouping

variable {α : Type}

def parts : Grouping α → List (Summary α)
  | .single s => [s]
  | .both left right => left.parts ++ right.parts

def merged [Measure α] : Grouping α → Summary α
  | .single s => s
  | .both left right => left.merged.merge right.merged

end Grouping

structure Whole (s : Summary Rat) (parts : List (Summary Rat)) : Prop where
  sum : s.sum = (parts.map (·.sum)).sum
  count : s.count = (parts.map (·.count)).sum
  least : IsLeast {x | ∃ p ∈ parts, p.least = x} s.least
  greatest : IsGreatest {x | ∃ p ∈ parts, p.greatest = x} s.greatest

theorem merge_comm (a b : Summary Rat) : a.merge b = b.merge a := by
  rw [merge, merge, mk.injEq]
  refine ⟨add_comm _ _, add_comm _ _, ?_, ?_⟩
  · rw [Measure.least_eq, Measure.least_eq, min_comm]
  · rw [Measure.greatest_eq, Measure.greatest_eq, max_comm]

theorem merge_assoc (a b c : Summary Rat) : (a.merge b).merge c = a.merge (b.merge c) := by
  simp only [merge, mk.injEq, Measure.least_eq, Measure.greatest_eq]
  exact ⟨add_assoc _ _ _, add_assoc _ _ _, min_assoc _ _ _, max_assoc _ _ _⟩

instance : Std.Commutative (merge : Summary Rat → Summary Rat → Summary Rat) := ⟨merge_comm⟩

instance : Std.Associative (merge : Summary Rat → Summary Rat → Summary Rat) := ⟨merge_assoc⟩

theorem some_join {α : Type} [Measure α] (whole : Option (Summary α)) (s : Summary α) :
    some (join whole s) = whole.merge merge (some s) := by
  cases whole with
  | none => rfl
  | some whole => rfl

theorem combine_eq_foldl_merge {α : Type} [Measure α] (parts : List (Summary α)) :
    combine parts = (parts.map some).foldl (Option.merge merge) none := by
  rw [combine, List.foldl_map]
  congr 1
  funext whole s
  exact some_join whole s

theorem combine_append (xs ys : List (Summary Rat)) :
    combine (xs ++ ys) = (combine xs).merge merge (combine ys) :=
  calc
    combine (xs ++ ys)
      = (ys.map some).foldl (Option.merge merge) (combine xs) := by
        rw [combine_eq_foldl_merge, combine_eq_foldl_merge, List.map_append, List.foldl_append]
    _ = (ys.map some).foldl (Option.merge merge) ((combine xs).merge merge none) := by
        rw [Option.merge_none_right]
    _ = (combine xs).merge merge (combine ys) := by
        rw [List.foldl_assoc, ← combine_eq_foldl_merge]

theorem combine_perm {xs ys : List (Summary Rat)} (h : xs.Perm ys) : combine xs = combine ys := by
  rw [combine_eq_foldl_merge, combine_eq_foldl_merge]
  exact (h.map some).foldl_eq none

theorem combine_parts (grouping : Grouping Rat) :
    combine grouping.parts = some grouping.merged := by
  induction grouping with
  | single s => rfl
  | both left right ihl ihr => rw [Grouping.parts, combine_append, ihl, ihr]; rfl

theorem whole_single (s : Summary Rat) : s.Whole [s] where
  sum := by simp
  count := by simp
  least := by simp
  greatest := by simp

theorem setOf_exists_mem_append {β γ : Type} (xs ys : List β) (f : β → γ) :
    {x | ∃ p ∈ xs ++ ys, f p = x} = {x | ∃ p ∈ xs, f p = x} ∪ {x | ∃ p ∈ ys, f p = x} := by
  ext x
  simp [or_and_right, exists_or]

theorem Whole.merge {a b : Summary Rat} {xs ys : List (Summary Rat)} (ha : a.Whole xs)
    (hb : b.Whole ys) : (a.merge b).Whole (xs ++ ys) where
  sum := by simp [Summary.merge, ha.sum, hb.sum]
  count := by simp [Summary.merge, ha.count, hb.count]
  least := by
    rw [setOf_exists_mem_append, Summary.merge, Measure.least_eq]
    exact ha.least.union hb.least
  greatest := by
    rw [setOf_exists_mem_append, Summary.merge, Measure.greatest_eq]
    exact ha.greatest.union hb.greatest

theorem whole_of_combine {xs : List (Summary Rat)} {s : Summary Rat} (h : combine xs = some s) :
    s.Whole xs := by
  induction xs generalizing s with
  | nil => cases h
  | cons x xs ih =>
    rw [← List.singleton_append, combine_append] at h
    cases rest : combine xs with
    | none =>
      rw [combine_eq_none_iff.1 rest]
      rw [rest] at h
      cases h
      exact whole_single x
    | some s' =>
      rw [rest] at h
      cases h
      exact (whole_single x).merge (ih rest)

/-- Merging is commutative and associative. What any number of summaries are combined into is missing only if
there are none of them, is the same in any order and however they are grouped in pairs, and tells the
totals and the extrema of all of them. -/
theorem combine_independent_of_grouping :
    (∀ a b : Summary Rat, a.merge b = b.merge a) ∧
    (∀ a b c : Summary Rat, (a.merge b).merge c = a.merge (b.merge c)) ∧
    (∀ xs : List (Summary Rat), combine xs = none ↔ xs = []) ∧
    (∀ xs ys : List (Summary Rat), xs.Perm ys → combine xs = combine ys) ∧
    (∀ grouping : Grouping Rat, combine grouping.parts = some grouping.merged) ∧
    (∀ xs ys : List (Summary Rat), combine (xs ++ ys) = (combine xs).merge merge (combine ys)) ∧
    ∀ (xs : List (Summary Rat)) (s : Summary Rat), combine xs = some s → s.Whole xs :=
  ⟨merge_comm, merge_assoc, fun _ => combine_eq_none_iff, fun _ _ => combine_perm, combine_parts,
    combine_append, fun _ _ => whole_of_combine⟩

theorem combine_independent_of_grouping_of_three :
    let a : Summary Rat := ⟨7, 3, 1, 4⟩
    let b : Summary Rat := ⟨2, 1, 2, 2⟩
    let c : Summary Rat := ⟨6, 2, 1, 5⟩
    [a, b, c].Perm [c, a, b] ∧ combine [a, b, c] = combine [c, a, b] ∧
      combine [a, b, c] = some ⟨15, 6, 1, 5⟩ ∧ (⟨15, 6, 1, 5⟩ : Summary Rat).Whole [a, b, c] := by
  intro a b c
  have turned : [a, b, c].Perm [c, a, b] := @List.perm_append_comm _ [a, b] [c]
  have combined : combine [a, b, c] = some ⟨15, 6, 1, 5⟩ := by decide +kernel
  obtain ⟨-, -, -, perm, -, -, whole⟩ := combine_independent_of_grouping
  exact ⟨turned, perm _ _ turned, combined, whole _ _ combined⟩

end ScopeComplexity.Summary
