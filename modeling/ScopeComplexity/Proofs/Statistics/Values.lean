import Mathlib.Algebra.BigOperators.Group.Multiset.Basic
import Mathlib.Algebra.Order.BigOperators.Group.Multiset
import Mathlib.Algebra.Order.Field.Rat
import Mathlib.Order.Bounds.Basic
import Mathlib.Tactic.Linarith
import ScopeComplexity.Proofs.Statistics.Exact

namespace ScopeComplexity

/-- A summary holds the number, the sum and the extrema of some values. -/
structure Summary.Covers (s : Summary Rat) (values : Multiset Rat) : Prop where
  count : s.count = values.card
  sum : s.sum = values.sum
  least : IsLeast (insert Measure.ceiling {x | x ∈ values}) s.least
  greatest : IsGreatest {x | x ∈ values} s.greatest

/-- An open tally and the values of all summaries that it has absorbed. -/
structure Tally.Holds (t : Tally Rat) (values : Multiset Rat) : Prop where
  count : t.count = 1 + values.card
  sum : t.sum = values.sum
  least : IsLeast (insert Measure.ceiling {x | x ∈ values}) t.least
  greatest : IsGreatest (insert 0 {x | x ∈ values}) t.greatest

theorem setOf_mem_add (v w : Multiset Rat) :
    {x | x ∈ v + w} = {x | x ∈ v} ∪ {x | x ∈ w} := by
  ext x
  simp

theorem setOf_mem_cons (x : Rat) (v : Multiset Rat) :
    {y | y ∈ x ::ₘ v} = insert x {y | y ∈ v} := by
  ext y
  simp

namespace Summary

theorem count_over {α : Type} [Measure α] (own : α) (inner : List (Summary α)) :
    (Summary.over own inner).count = 1 + (inner.map (·.count)).sum := by
  rw [← List.sum_cons, List.sum_eq_foldl]
  rfl

theorem Covers.merge {a b : Summary Rat} {v w : Multiset Rat} (ha : a.Covers v) (hb : b.Covers w) :
    (a.merge b).Covers (v + w) where
  count := by simp [Summary.merge, ha.count, hb.count]
  sum := by simp [Summary.merge, ha.sum, hb.sum]
  least := by
    rw [setOf_mem_add, Set.insert_union_distrib, Summary.merge, Measure.least_eq]
    exact ha.least.union hb.least
  greatest := by
    rw [setOf_mem_add, Summary.merge, Measure.greatest_eq]
    exact ha.greatest.union hb.greatest

theorem Covers.ne_zero {s : Summary Rat} {v : Multiset Rat} (h : s.Covers v) : v ≠ 0 := by
  rintro rfl
  simpa using h.greatest.1

theorem Covers.count_pos {s : Summary Rat} {v : Multiset Rat} (h : s.Covers v) : 0 < s.count := by
  rw [h.count]
  exact_mod_cast Multiset.card_pos.2 h.ne_zero

theorem Covers.least_le {s : Summary Rat} {v : Multiset Rat} (h : s.Covers v) {x : Rat}
    (hx : x ∈ v) : s.least ≤ x :=
  h.least.2 (Set.mem_insert_of_mem _ hx)

theorem Covers.isLeast {s : Summary Rat} {v : Multiset Rat} (h : s.Covers v)
    (below : ∃ x ∈ v, x < Measure.ceiling) :
    IsLeast {x | x ∈ v} s.least ∧ s.least < Measure.ceiling := by
  obtain ⟨x, hx, lt⟩ := below
  have lower : s.least < Measure.ceiling := (h.least_le hx).trans_lt lt
  refine ⟨⟨?_, fun y hy => h.least_le hy⟩, lower⟩
  exact h.least.1.resolve_left lower.ne

theorem Covers.one_le_least {s : Summary Rat} {v : Multiset Rat} (h : s.Covers v)
    (one_le : ∀ x ∈ v, 1 ≤ x) : 1 ≤ s.least := by
  rcases h.least.1 with ceiling | member
  · rw [ceiling]
    exact Measure.one_lt_ceiling.le
  · exact one_le _ member

theorem Covers.average {s : Summary Rat} {v : Multiset Rat} (h : s.Covers v) :
    s.average = .ok (s.sum / s.count) := by
  rw [Summary.average]
  change (if (s.count == 0) = true then _ else _) = _
  rw [if_neg (by simpa using h.count_pos.ne')]

theorem Covers.least_le_mean {s : Summary Rat} {v : Multiset Rat} (h : s.Covers v) :
    s.least ≤ s.sum / s.count := by
  have count : (0 : Rat) < s.count := by exact_mod_cast h.count_pos
  rw [le_div_iff₀ count, h.sum, h.count, mul_comm]
  have total := Multiset.card_nsmul_le_sum fun x hx => h.least_le hx
  simpa using total

theorem Covers.mean_le_greatest {s : Summary Rat} {v : Multiset Rat} (h : s.Covers v) :
    s.sum / s.count ≤ s.greatest := by
  have count : (0 : Rat) < s.count := by exact_mod_cast h.count_pos
  rw [div_le_iff₀ count, h.sum, h.count, mul_comm]
  have total := Multiset.sum_le_card_nsmul _ _ fun x hx => h.greatest.2 hx
  simpa using total

end Summary

namespace Tally

theorem holds_start : (start : Tally Rat).Holds 0 where
  count := rfl
  sum := rfl
  least := by simp [start]
  greatest := by simp [start]

theorem Holds.raised {t : Tally Rat} {v : Multiset Rat} (h : t.Holds v) : t.raised.Holds v :=
  ⟨h.count, h.sum, h.least, h.greatest⟩

theorem Holds.absorbed {t : Tally Rat} {v w : Multiset Rat} (h : t.Holds v) {child : Summary Rat}
    (hc : child.Covers w) : (t.absorbed child).Holds (v + w) where
  count := by simp [Tally.absorbed, h.count, hc.count, add_assoc]
  sum := by simp [Tally.absorbed, h.sum, hc.sum]
  least := by
    rw [setOf_mem_add, Set.insert_union_distrib, Tally.absorbed, Measure.least_eq]
    exact h.least.union hc.least
  greatest := by
    rw [setOf_mem_add, ← Set.insert_union, Tally.absorbed, Measure.greatest_eq]
    exact h.greatest.union hc.greatest

theorem Holds.summary {t : Tally Rat} {v : Multiset Rat} (h : t.Holds v)
    (nonneg : 0 ≤ t.cyclomatic) : t.summary.Covers (t.cyclomatic ::ₘ v) where
  count := by simp [Tally.summary, h.count, add_comm]
  sum := by simp [Tally.summary, h.sum, add_comm]
  least := by
    rw [setOf_mem_cons, Set.insert_comm, Set.insert_eq, Tally.summary, Measure.least_eq, min_comm]
    exact isLeast_singleton.union h.least
  greatest := by
    rw [setOf_mem_cons, Set.insert_eq, Tally.summary, Measure.greatest_eq, max_comm]
    have top := isGreatest_singleton.union h.greatest (a := t.cyclomatic)
    refine ⟨?_, upperBounds_mono_set ?_ top.2⟩
    · rcases h.greatest.1 with zero | member
      · rw [zero, max_eq_left nonneg]
        exact Or.inl rfl
      · rcases max_choice t.cyclomatic t.greatest with same | same
        · rw [same]
          exact Or.inl rfl
        · rw [same]
          exact Or.inr member
    · exact Set.union_subset_union_right _ (Set.subset_insert _ _)

theorem Holds.raised_iterate {t : Tally Rat} {v : Multiset Rat} (h : t.Holds v) (decisions : Nat) :
    (Tally.raised^[decisions] t).Holds v := by
  induction decisions generalizing t with
  | zero => exact h
  | succ decisions ih => exact ih h.raised

theorem Holds.foldl_absorbed {β : Type} {f : β → Summary Rat} {v : β → Multiset Rat} {children : List β}
    (covers : ∀ c ∈ children, (f c).Covers (v c)) {t : Tally Rat} {w : Multiset Rat} (h : t.Holds w) :
    ((children.map f).foldl Tally.absorbed t).Holds (w + (children.map v).sum) := by
  induction children generalizing t w with
  | nil => simpa using h
  | cons c children ih =>
    rw [List.forall_mem_cons] at covers
    rw [List.map_cons, List.foldl_cons, List.map_cons, List.sum_cons, ← add_assoc]
    exact ih covers.2 (h.absorbed covers.1)

end Tally

namespace Summary

theorem Covers.foldl_join {β : Type} {f : β → Summary Rat} {v : β → Multiset Rat} {parts : List β}
    (covers : ∀ p ∈ parts, (f p).Covers (v p)) {s : Summary Rat} {w : Multiset Rat} (h : s.Covers w) :
    ∃ whole, (parts.map f).foldl (fun whole s => some (join whole s)) (some s) = some whole ∧
      whole.Covers (w + (parts.map v).sum) := by
  induction parts generalizing s w with
  | nil => exact ⟨s, rfl, by simpa using h⟩
  | cons p parts ih =>
    rw [List.forall_mem_cons] at covers
    rw [List.map_cons, List.foldl_cons, List.map_cons, List.sum_cons, ← add_assoc]
    exact ih covers.2 (h.merge covers.1)

theorem covers_combine {β : Type} {f : β → Summary Rat} {v : β → Multiset Rat} {parts : List β}
    (covers : ∀ p ∈ parts, (f p).Covers (v p)) {whole : Summary Rat}
    (h : combine (parts.map f) = some whole) : whole.Covers (parts.map v).sum := by
  cases parts with
  | nil => cases h
  | cons p parts =>
    rw [List.forall_mem_cons] at covers
    obtain ⟨whole', h', covered⟩ := Covers.foldl_join covers.2 covers.1
    rw [combine, List.map_cons, List.foldl_cons, join, h'] at h
    cases h
    rwa [List.map_cons, List.sum_cons]

theorem combine_eq_none_iff {α : Type} [Measure α] {summaries : List (Summary α)} :
    combine summaries = none ↔ summaries = [] := by
  have isSome : ∀ (summaries : List (Summary α)) (s : Summary α),
      summaries.foldl (fun whole s => some (join whole s)) (some s) ≠ none := by
    intro summaries
    induction summaries with
    | nil => simp
    | cons s' summaries ih => exact fun s => ih (join (some s) s')
  cases summaries with
  | nil => simp [combine]
  | cons s summaries => simpa [combine] using isSome summaries (join none s)

end Summary

end ScopeComplexity
