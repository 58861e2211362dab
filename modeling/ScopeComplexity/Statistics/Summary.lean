import ScopeComplexity.Measure

namespace ScopeComplexity

structure Summary (α : Type) where
  sum : α
  count : Int
  least : α
  greatest : α
  deriving DecidableEq, BEq

namespace Summary

variable {α : Type} [Measure α]

def average (s : Summary α) : Except NoMean α := Measure.mean s.sum s.count

def merge (a b : Summary α) : Summary α where
  sum := Measure.add a.sum b.sum
  count := a.count + b.count
  least := Measure.least a.least b.least
  greatest := Measure.greatest a.greatest b.greatest

def join : Option (Summary α) → Summary α → Summary α
  | none, s => s
  | some whole, s => whole.merge s

def combine (summaries : List (Summary α)) : Option (Summary α) :=
  summaries.foldl (fun whole s => some (join whole s)) none

def describe (s : Summary Float) : Except NoMean String := do
  let average ← s.average
  return "sum: " ++ metricText s.sum ++ ", average: " ++ metricText average
    ++ ", min: " ++ metricText s.least ++ ", max: " ++ metricText s.greatest

end Summary

end ScopeComplexity
