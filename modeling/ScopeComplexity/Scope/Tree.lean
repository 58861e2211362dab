import ScopeComplexity.Scope.Kind
import ScopeComplexity.Statistics.Summary
import ScopeComplexity.WorkList

namespace ScopeComplexity

structure Scope (α : Type) where
  name : Option String
  kind : ScopeKind
  startLine : Int
  endLine : Int
  cyclomatic : α
  metrics : Summary α
  scopes : List (Scope α)

namespace Scope

def nested (depth : Nat) (s : Scope α) : List (Nat × Scope α) := s.scopes.map (depth + 1, ·)

theorem weight_nested_lt (depth : Nat) (s : Scope α) :
    WorkList.weight ((nested depth s).map (·.2)) < sizeOf s := by
  obtain ⟨name, kind, startLine, endLine, cyclomatic, metrics, scopes⟩ := s
  have := WorkList.weight_lt_sizeOf scopes
  simp only [nested, List.map_map, Function.comp_def, List.map_id', Scope.mk.sizeOf_spec]
  omega

/-- Scopes waiting for a visit, each with its depth. The next one comes first, and the scopes nested in it
go before all others. -/
def visit (pending : List (Nat × Scope α)) : List (Nat × Scope α) :=
  match pending with
  | [] => []
  | (depth, s) :: rest => (depth, s) :: visit (nested depth s ++ rest)
termination_by WorkList.weight (pending.map (·.2))
decreasing_by
  have := weight_nested_lt depth s
  simp only [List.map_append, List.map_cons, WorkList.weight_append, WorkList.weight]
  omega

def outline (s : Scope α) : List (Nat × Scope α) := visit [(0, s)]

def walk (s : Scope α) : List (Scope α) := s.outline.map (·.2)

def find (s : Scope α) (name : Option String) : Option (Scope α) :=
  s.walk.find? (·.name == name)

def position? (s : Scope α) (name : Option String) : Option Nat :=
  s.walk.findIdx? (·.name == name)

def count (s : Scope α) : Int := s.metrics.count

end Scope

end ScopeComplexity
