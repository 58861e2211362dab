import ScopeComplexity.Rules
import ScopeComplexity.Scope.Opening

/-!
From a syntax tree to its scope tree in one walk. Every node waits with a level, the number of scopes that
enclose it. A node of a level below the current depth closes the scopes it lies outside of, a node
that opens a scope goes one deeper, and each is classified against the innermost open scope, so
that a decision counts for exactly one.
-/

namespace ScopeComplexity

open Syntax

structure Walk (α : Type) where
  depth : Nat
  opened : List (Opening α)

namespace Walk

variable {α : Type} [Measure α]

def classify (rules : Rules) (s : Site) (opened : List (Opening α)) :
    Except StateError (List (Opening α)) :=
  if rules.isDecision s then Opening.onInnermost Opening.increment opened else .ok opened

def labelOf (kind : ScopeKind) (n : Node) : Option String :=
  if kind = .closure then none else n.scopeName

def start (rules : Rules) (root : Site) (name : Option String) : Except StateError (Walk α) := do
  let opened ← classify rules root [Opening.ofNode root.node .unit name]
  return ⟨1, opened⟩

def leave (w : Walk α) (level : Nat) : Except StateError (Walk α) := do
  let opened ← (Opening.close (w.depth - level) w.opened).done
  return ⟨min w.depth level, opened⟩

def enter (rules : Rules) (level : Nat) (s : Site) (w : Walk α) :
    Except StateError (Nat × Walk α) := do
  let w ← w.leave level
  match rules.scopeKind s.node with
  | none => return (level, ⟨w.depth, ← classify rules s w.opened⟩)
  | some kind =>
    let opening := Opening.ofNode s.node kind (labelOf kind s.node)
    return (level + 1, ⟨level + 1, ← classify rules s (opening :: w.opened)⟩)

def childrenAt (level : Nat) (s : Site) : List (Nat × Site) := s.children.map (level, ·)

theorem weight_childrenAt_lt (level : Nat) (s : Site) :
    WorkList.weight ((childrenAt level s).map (·.2.node)) < sizeOf s.node := by
  have := s.weight_children_lt
  simp only [childrenAt, List.map_map, Function.comp_def] at *
  exact this

def run (rules : Rules) (pending : List (Nat × Site)) (w : Walk α) : Except StateError (Walk α) :=
  match pending with
  | [] => .ok w
  | (level, s) :: rest =>
    match w.enter rules level s with
    | .error e => .error e
    | .ok (below, w) => run rules (childrenAt below s ++ rest) w
termination_by WorkList.weight (pending.map (·.2.node))
decreasing_by
  have := weight_childrenAt_lt below s
  simp only [List.map_append, List.map_cons, WorkList.weight_append, WorkList.weight]
  omega

def finish (w : Walk α) : Except StateError (Scope α) := do
  match ← (Opening.close (w.opened.length - 1) w.opened).done with
  | [] => throw .unitStillOpen
  | unit :: _ => return (← unit.finish).1

end Walk

def Scope.ofSite {α : Type} [Measure α] (rules : Rules) (root : Site) (name : Option String) :
    Except StateError (Scope α) := do
  let start ← Walk.start rules root name
  let walk ← start.run rules (Walk.childrenAt 1 root)
  walk.finish

end ScopeComplexity
