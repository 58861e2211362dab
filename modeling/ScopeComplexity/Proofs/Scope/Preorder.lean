import Mathlib.Data.List.Basic
import ScopeComplexity.Scope.Tree

namespace ScopeComplexity.Scope

variable {α : Type}

theorem sizeOf_lt_of_mem_scopes {c s : Scope α} (h : c ∈ s.scopes) : sizeOf c < sizeOf s := by
  obtain ⟨name, kind, startLine, endLine, cyclomatic, metrics, scopes⟩ := s
  have := List.sizeOf_lt_of_mem h
  simp only [Scope.mk.sizeOf_spec] at *
  omega

@[elab_as_elim]
theorem induction {motive : Scope α → Prop}
    (scope : ∀ s : Scope α, (∀ c ∈ s.scopes, motive c) → motive s) (s : Scope α) : motive s :=
  scope s fun c _ => induction scope c
termination_by sizeOf s
decreasing_by exact sizeOf_lt_of_mem_scopes ‹_›

mutual

def rows (depth : Nat) : Scope α → List (Nat × Scope α)
  | ⟨name, kind, startLine, endLine, cyclomatic, metrics, scopes⟩ =>
    (depth, ⟨name, kind, startLine, endLine, cyclomatic, metrics, scopes⟩)
      :: rowsOfAll (depth + 1) scopes

def rowsOfAll (depth : Nat) : List (Scope α) → List (Nat × Scope α)
  | [] => []
  | s :: others => s.rows depth ++ rowsOfAll depth others

end

theorem rowsOfAll_eq (depth : Nat) (scopes : List (Scope α)) :
    rowsOfAll depth scopes = scopes.flatMap (rows depth) := by
  induction scopes with
  | nil => rfl
  | cons s scopes ih => rw [rowsOfAll, List.flatMap_cons, ih]

theorem rows_eq (depth : Nat) (s : Scope α) :
    s.rows depth = (depth, s) :: s.scopes.flatMap (rows (depth + 1)) := by
  cases s
  rw [rows, rowsOfAll_eq]

theorem flatMap_nested (depth : Nat) (s : Scope α) :
    (nested depth s).flatMap (fun p => p.2.rows p.1) = s.scopes.flatMap (rows (depth + 1)) :=
  List.flatMap_map _ _ _

theorem visit_eq_flatMap (pending : List (Nat × Scope α)) :
    visit pending = pending.flatMap fun p => p.2.rows p.1 := by
  induction pending using visit.induct with
  | case1 => rw [visit, List.flatMap_nil]
  | case2 depth s rest ih =>
    rw [visit, ih, List.flatMap_append, flatMap_nested, List.flatMap_cons, rows_eq,
      List.cons_append]

theorem outline_eq_rows (s : Scope α) : s.outline = s.rows 0 := by
  rw [outline, visit_eq_flatMap, List.flatMap_singleton]

theorem map_snd_rows (depth : Nat) (s : Scope α) : (s.rows depth).map (·.2) = s.walk := by
  rw [walk, outline_eq_rows]
  generalize 0 = depth'
  induction s using induction generalizing depth depth' with
  | scope s ih =>
    rw [rows_eq, rows_eq, List.map_cons, List.map_cons, List.map_flatMap, List.map_flatMap]
    exact congrArg (s :: ·) (List.flatMap_congr fun c h => ih c h _ _)

theorem walk_eq (s : Scope α) : s.walk = s :: s.scopes.flatMap walk := by
  rw [walk, outline_eq_rows, rows_eq, List.map_cons, List.map_flatMap]
  exact congrArg (s :: ·) (List.flatMap_congr fun c _ => map_snd_rows _ c)

theorem mem_walk_self (s : Scope α) : s ∈ s.walk := by
  rw [walk_eq]
  exact List.mem_cons_self

theorem forall_mem_walk {motive : Scope α → Prop} {s : Scope α} :
    (∀ t ∈ s.walk, motive t) ↔ motive s ∧ ∀ c ∈ s.scopes, ∀ t ∈ c.walk, motive t := by
  rw [walk_eq, List.forall_mem_cons, List.forall_mem_flatMap]

theorem walk_subset {s t : Scope α} (h : t ∈ s.walk) : t.walk ⊆ s.walk := by
  induction s using induction with
  | scope s ih =>
    rw [walk_eq s] at h ⊢
    rcases List.mem_cons.1 h with rfl | h
    · rw [walk_eq]
      exact List.Subset.refl _
    · obtain ⟨c, hc, h⟩ := List.mem_flatMap.1 h
      intro u hu
      exact List.mem_cons_of_mem _ (List.mem_flatMap.2 ⟨c, hc, ih c hc h hu⟩)

end ScopeComplexity.Scope
