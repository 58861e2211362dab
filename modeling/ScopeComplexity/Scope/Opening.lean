import ScopeComplexity.Scope.Tree
import ScopeComplexity.Statistics.Tally
import ScopeComplexity.Syntax.Site

namespace ScopeComplexity

open Syntax

structure Opening (α : Type) where
  name : Option String
  kind : ScopeKind
  startLine : Int
  endLine : Int
  tally : Tally α
  adopted : List (Scope α)

namespace Opening

variable {α : Type} [Measure α]

def ofNode (n : Node) (kind : ScopeKind) (name : Option String) : Opening α where
  name
  kind
  startLine := n.lines.1
  endLine := n.lines.2
  tally := Tally.start
  adopted := []

def increment (o : Opening α) : Except StateError (Opening α) := do
  let tally ← o.tally.increment
  return { o with tally }

def incrementBy (times : Nat) (o : Opening α) : Except StateError (Opening α) := do
  let tally ← o.tally.incrementBy times
  return { o with tally }

def adopt (o : Opening α) (child : Scope α) : Except StateError (Opening α) := do
  let tally ← o.tally.absorb child.metrics
  return { o with tally, adopted := child :: o.adopted }

def finish (o : Opening α) : Except StateError (Scope α × Opening α) := do
  let (metrics, tally) ← o.tally.finish
  let scope : Scope α :=
    { name := o.name, kind := o.kind, startLine := o.startLine, endLine := o.endLine
      cyclomatic := o.tally.cyclomatic, metrics, scopes := o.adopted.reverse }
  return (scope, { o with tally })

structure Closing (α : Type) where
  opened : List (Opening α)
  fault : Option StateError

/-- Closes the innermost scope; the unit around all others is never closed. A scope that is not accepted
around it is gone all the same. -/
def closeOne : List (Opening α) → Closing α
  | inner :: outer :: rest =>
    match inner.finish with
    | .error e => ⟨outer :: rest, some e⟩
    | .ok (finished, _) =>
      match outer.adopt finished with
      | .error e => ⟨outer :: rest, some e⟩
      | .ok outer => ⟨outer :: rest, none⟩
  | opened => ⟨opened, some .unitStillOpen⟩

def close : Nat → List (Opening α) → Closing α
  | 0, opened => ⟨opened, none⟩
  | count + 1, opened =>
    match closeOne opened with
    | ⟨opened, none⟩ => close count opened
    | stopped => stopped

def Closing.done : Closing α → Except StateError (List (Opening α))
  | ⟨opened, none⟩ => .ok opened
  | ⟨_, some e⟩ => .error e

def onInnermost (f : Opening α → Except StateError (Opening α)) :
    List (Opening α) → Except StateError (List (Opening α))
  | [] => .ok []
  | inner :: rest => do
    let inner ← f inner
    return inner :: rest

end Opening

end ScopeComplexity
