import ScopeComplexity.Keyed
import ScopeComplexity.Scope.Kind
import ScopeComplexity.Syntax.Site

/-!
Rules of classification. A language is described by tables; one classifier reads them and says which
nodes are decisions and which nodes open a scope.
-/

namespace ScopeComplexity

open Syntax

abbrev Guard := Site → Bool

namespace Guard

def parentIs (kinds : List String) : Guard := fun s =>
  match s.parent? with
  | none => false
  | some parent => parent.kindIn kinds

def ancestor (found stop : Site → Bool) : Guard := fun s => s.hasAncestor found stop

end Guard

structure Rules where
  decisions : List String := []
  guards : Keyed Guard := []
  scopes : Keyed ScopeKind := []
  /-- Kinds that open a scope only with a body; without one they refer to a type. -/
  bodyRequired : List String := []

namespace Rules

def classifies (r : Rules) : Bool := !r.decisions.isEmpty

def isDecision (r : Rules) (s : Site) : Bool :=
  r.decisions.contains s.node.kind &&
    match r.guards.get? s.node.kind with
    | none => true
    | some guard => guard s

/-- The kind of scope that a node opens. Keywords share their names with nodes and open none. -/
def scopeKind (r : Rules) (n : Node) : Option ScopeKind :=
  if !n.named then none
  else if r.bodyRequired.contains n.kind && (n.child? "body").isNone then none
  else r.scopes.get? n.kind

end Rules

end ScopeComplexity
