import ScopeComplexity.Decimal.Layout

namespace ScopeComplexity

inductive NoMean where
  | noScopes
  | countTooLarge
  deriving DecidableEq

def NoMean.message : NoMean → String
  | .noScopes => "float division by zero"
  | .countTooLarge => "int too large to convert to float"

class Measure (α : Type) where
  zero : α
  one : α
  add : α → α → α
  less : α → α → Bool
  ceiling : α
  mean : α → Int → Except NoMean α

namespace Measure

def least [Measure α] (a b : α) : α := if less b a then b else a

def greatest [Measure α] (a b : α) : α := if less a b then b else a

end Measure

def greatestFinite : Nat := (Decimal.twoTo 53 - 1) * Decimal.twoTo 971

instance : Measure Float where
  zero := 0.0
  one := 1.0
  add := (· + ·)
  less a b := a < b
  ceiling := Decimal.Binary64.nearest false greatestFinite 1
  mean total count :=
    match Decimal.Binary64.ofInt? count with
    | none => .error .countTooLarge
    | some n => if count == 0 then .error .noScopes else .ok (total / n)

instance : Measure Rat where
  zero := 0
  one := 1
  add := (· + ·)
  less a b := a < b
  ceiling := greatestFinite
  mean total count := if count == 0 then .error .noScopes else .ok (total / count)

def metricLayout : Decimal.Layout :=
  ⟨-4, 16, 2, "inf", "nan"⟩

def metricText (x : Float) : String := metricLayout.write x

end ScopeComplexity
