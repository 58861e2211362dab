import ScopeComplexity.Statistics.Summary

/-!
The running statistic of a scope that is still being walked. Decisions raise its own complexity, finished
scopes inside it are absorbed, and finishing it records its own complexity exactly once. A finished
tally refuses everything.
-/

namespace ScopeComplexity

inductive Tally.Action where
  | increment
  | merge
  | finalize
  deriving DecidableEq

def Tally.Action.text : Tally.Action → String
  | .increment => "increment"
  | .merge => "merge"
  | .finalize => "finalize"

inductive StateError where
  | finalized (action : Tally.Action)
  | unitStillOpen
  deriving DecidableEq

def StateError.reason : StateError → String
  | .finalized action => "cannot " ++ action.text ++ " a finalized cyclomatic accumulator"
  | .unitStillOpen => "attempted to close the unit space before the walk ended"

structure Tally (α : Type) where
  cyclomatic : α
  sum : α
  count : Int
  greatest : α
  least : α
  final : Option (Summary α)
  deriving DecidableEq

namespace Tally

variable {α : Type} [Measure α]

def start : Tally α where
  cyclomatic := Measure.one
  sum := Measure.zero
  count := 1
  greatest := Measure.zero
  least := Measure.ceiling
  final := none

def isFinished (t : Tally α) : Bool := t.final.isSome

def whileOpen (t : Tally α) (action : Action) : Except StateError (Tally α) :=
  if t.isFinished then .error (.finalized action) else .ok t

def increment (t : Tally α) : Except StateError (Tally α) := do
  let t ← t.whileOpen .increment
  return { t with cyclomatic := Measure.add t.cyclomatic Measure.one }

def incrementBy : Nat → Tally α → Except StateError (Tally α)
  | 0, t => .ok t
  | times + 1, t => t.increment >>= incrementBy times

def absorb (t : Tally α) (child : Summary α) : Except StateError (Tally α) := do
  let t ← t.whileOpen .merge
  return { t with
    greatest := Measure.greatest t.greatest child.greatest
    least := Measure.least t.least child.least
    sum := Measure.add t.sum child.sum
    count := t.count + child.count }

def summary (t : Tally α) : Summary α where
  sum := Measure.add t.sum t.cyclomatic
  count := t.count
  least := Measure.least t.least t.cyclomatic
  greatest := Measure.greatest t.greatest t.cyclomatic

def finish (t : Tally α) : Except StateError (Summary α × Tally α) := do
  let t ← t.whileOpen .finalize
  let s := t.summary
  return (s, { t with
    greatest := s.greatest, least := s.least, sum := s.sum, final := some s })

def describe (t : Tally Float) : String :=
  "CyclomaticStats(cyclomatic=" ++ metricText t.cyclomatic ++ ", sum=" ++ metricText t.sum
    ++ ", n=" ++ toString t.count ++ ", min=" ++ metricText t.least
    ++ ", max=" ++ metricText t.greatest ++ ")"

end Tally

end ScopeComplexity
