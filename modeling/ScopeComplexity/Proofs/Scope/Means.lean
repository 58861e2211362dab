import Mathlib.Algebra.BigOperators.Ring.Finset
import ScopeComplexity.Proofs.Decimal.Whole
import ScopeComplexity.Proofs.Scope.Conservation
import ScopeComplexity.Proofs.Scope.Totals

namespace ScopeComplexity

open Syntax

variable {α : Type} [Measure α]

namespace Scope

theorem Grown.count {s : Scope α} (h : s.Grown) :
    s.metrics.count = 1 + (s.scopes.map (·.metrics.count)).sum := by
  obtain ⟨decisions, -, metrics⟩ := h
  rw [metrics, Tally.summary_gathered_start, Summary.count_over, List.map_map]
  rfl

theorem count_eq_length_walk {s : Scope α} (h : ∀ t ∈ s.walk, t.Grown) :
    s.metrics.count = s.walk.length := by
  induction s using Scope.induction with
  | scope s ih =>
    rw [forall_mem_walk] at h
    have inner : s.scopes.map (·.metrics.count) = s.scopes.map fun c => (c.walk.length : Int) :=
      List.map_congr_left fun c member => ih c member (h.2 c member)
    rw [h.1.count, inner, walk_eq, List.length_cons, List.length_flatMap, Nat.cast_succ, add_comm,
      Nat.cast_list_sum, List.map_map]
    rfl

omit [Measure α] in
theorem length_walk_le {s t : Scope α} (h : t ∈ s.walk) : t.walk.length ≤ s.walk.length := by
  induction s using Scope.induction with
  | scope s ih =>
    rw [walk_eq, List.mem_cons, List.mem_flatMap] at h
    rcases h with rfl | ⟨c, member, h⟩
    · exact le_rfl
    · rw [walk_eq s, List.length_cons, List.length_flatMap]
      have own := List.single_le_sum (fun _ _ => Nat.zero_le _) _ (List.mem_map_of_mem (f := fun c => c.walk.length) member)
      have := ih c member h
      omega

theorem length_walk_ofNode_le (rules : Rules) (root : Site) (name : Option String) :
    (ofNode rules root name : Scope α).walk.length ≤ root.node.places.length := by
  obtain ⟨taken, w, reached⟩ := Walk.exists_reached_end (α := α) rules root name
  obtain ⟨unit, closed, -, -, built⟩ := reached.finish
  have count := reached.summed_close Opening.conserved_count (w.opened.length - 1)
  have grown := forall_grown_ofNode (α := α) rules root name
  rw [ofSite_eq_ofNode, Except.ok.injEq] at built
  rw [closed, nsmul_zero, add_zero, nsmul_one] at count
  have count : unit.count = Walk.openings rules taken := by
    simpa [Opening.summed] using count
  have opened := List.countP_le_length (p := fun s => rules.opens s.node) (l := taken)
  have all := reached.length_le
  rw [← Opening.count_finished, ← built, count_eq_length_walk grown, Walk.openings] at count
  rw [List.length_cons] at all
  omega

end Scope

def Summary.HasMean (m : Summary α) : Prop := ∃ average, m.average = .ok average

theorem Summary.hasMean_of_count {m : Summary Float} (positive : 0 < m.count)
    (small : m.count < Decimal.Binary64.wholeLimit) : m.HasMean := by
  obtain ⟨n, count⟩ := Decimal.Binary64.exists_ofInt? (n := m.count) (by omega)
  refine ⟨m.sum / n, ?_⟩
  simp [average, Measure.mean, count, positive.ne']

theorem Scope.hasMean_of_grown {s : Scope Float} (grown : ∀ t ∈ s.walk, t.Grown)
    (small : s.walk.length < Decimal.Binary64.wholeLimit) : ∀ t ∈ s.walk, t.metrics.HasMean := by
  intro t member
  have count := count_eq_length_walk fun u below => grown u (walk_subset member below)
  have le := length_walk_le member
  have some : 0 < t.walk.length := List.length_pos_of_mem t.mem_walk_self
  exact Summary.hasMean_of_count (by omega) (by omega)

theorem Scope.hasMean_ofNode {rules : Rules} {root : Site} {name : Option String}
    (small : root.node.places.length < Decimal.Binary64.wholeLimit) :
    ∀ t ∈ (ofNode rules root name : Scope Float).walk, t.metrics.HasMean :=
  hasMean_of_grown (forall_grown_ofNode rules root name)
    ((length_walk_ofNode_le rules root name).trans_lt small)

end ScopeComplexity
