import ScopeComplexity.Decimal.Fixed
import ScopeComplexity.Scope.Tree

namespace ScopeComplexity

structure View where
  label : String
  branches : List View

namespace Scope

def shownName (s : Scope α) : String :=
  match s.name with
  | some name => if name.isEmpty then "<anonymous>" else name
  | none => "<anonymous>"

def viewLabel (s : Scope Float) : String :=
  "[cyan]" ++ s.kind.text ++ "[/cyan] [bold]" ++ s.shownName ++ "[/bold] [dim]lines "
    ++ toString s.startLine ++ "-" ++ toString s.endLine ++ "[/dim] cyclomatic [yellow]"
    ++ Decimal.brief s.cyclomatic ++ "[/yellow]"

theorem weight_scopes_lt (s : Scope α) : WorkList.weight s.scopes < sizeOf s := by
  obtain ⟨name, kind, startLine, endLine, cyclomatic, metrics, scopes⟩ := s
  have := WorkList.weight_lt_sizeOf scopes
  simp only [Scope.mk.sizeOf_spec]
  omega

theorem weight_level_le (level : List (Scope α)) :
    WorkList.weight (level.flatMap (·.scopes)) ≤ WorkList.weight level := by
  induction level with
  | nil => simp [WorkList.weight]
  | cons s level ih =>
    have := weight_scopes_lt s
    simp only [List.flatMap_cons, WorkList.weight_append, WorkList.weight]
    omega

def share (label : Scope α → String) : List (Scope α) → List View → List View
  | [], _ => []
  | s :: level, below =>
    ⟨label s, below.take s.scopes.length⟩ :: share label level (below.drop s.scopes.length)

/-- The branches for the scopes in a queue. The scopes nested in them queue up behind them in the same order, so
that the queue goes on as the next level. -/
def views (label : Scope α → String) (level : List (Scope α)) : List View :=
  match level with
  | [] => []
  | s :: rest => share label (s :: rest) (views label ((s :: rest).flatMap (·.scopes)))
termination_by WorkList.weight level
decreasing_by
  have := weight_scopes_lt s
  have := weight_level_le rest
  simp only [List.flatMap_cons, WorkList.weight_append, WorkList.weight]
  omega

def view (s : Scope Float) : View := ⟨s.viewLabel, views viewLabel s.scopes⟩

end Scope

namespace View

def nested (depth : Nat) (v : View) : List (Nat × View) := v.branches.map (depth + 1, ·)

theorem weight_nested_lt (depth : Nat) (v : View) :
    WorkList.weight ((nested depth v).map (·.2)) < sizeOf v := by
  obtain ⟨label, branches⟩ := v
  have := WorkList.weight_lt_sizeOf branches
  simp only [nested, List.map_map, Function.comp_def, List.map_id', View.mk.sizeOf_spec]
  omega

def visit (pending : List (Nat × View)) : List (Nat × String) :=
  match pending with
  | [] => []
  | (depth, v) :: rest => (depth, v.label) :: visit (nested depth v ++ rest)
termination_by WorkList.weight (pending.map (·.2))
decreasing_by
  have := weight_nested_lt depth v
  simp only [List.map_append, List.map_cons, WorkList.weight_append, WorkList.weight]
  omega

def outline (v : View) : List (Nat × String) := visit [(0, v)]

end View

end ScopeComplexity
