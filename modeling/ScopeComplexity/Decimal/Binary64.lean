import ScopeComplexity.Decimal.Power

/-!
Doubles as exact numbers: a finite double is a whole mantissa times a power of two, and every
quotient of whole numbers has a nearest double. Reading and writing of number texts rest on these
two directions alone.
-/

namespace ScopeComplexity.Decimal

/-- The quotient of two whole numbers rounded to the nearest whole number, a half to the even one. -/
def roundDiv (num den : Nat) : Nat :=
  let quotient := num / den
  let twice := 2 * (num % den)
  if twice < den then quotient
  else if den < twice then quotient + 1
  else quotient + quotient % 2

/-- The number `mantissa · 2 ^ exponent` with a sign, or one of the values that are no number. -/
inductive Binary64 where
  | finite (negative : Bool) (mantissa : Nat) (exponent : Int)
  | infinite (negative : Bool)
  | notANumber
  deriving DecidableEq

inductive NoWholePart where
  | notANumber
  | infinite
  deriving DecidableEq

namespace Binary64

def leastExponent : Int := -1074

def topField : Nat := 2047

def ofBits (word : Nat) : Binary64 :=
  let negative := word / twoTo 63 % 2 == 1
  let field := word / twoTo 52 % twoTo 11
  let fraction := word % twoTo 52
  if field == topField then
    if fraction == 0 then .infinite negative else .notANumber
  else if field == 0 then .finite negative fraction leastExponent
  else .finite negative (fraction + twoTo 52) ((field : Int) - 1 + leastExponent)

def ofFloat (x : Float) : Binary64 := ofBits x.toBits.toNat

def scaled (num den : Nat) (power : Int) : Nat × Nat :=
  if power < 0 then (num, den * twoTo power.natAbs) else (num * twoTo power.natAbs, den)

/-- The exponent at which `num / den` has a mantissa of 53 bits, or the least exponent. -/
def exponentOf (num den : Nat) : Int :=
  let guess := max ((num.log2 : Int) - den.log2 - 53) leastExponent
  let (n, d) := scaled num den (-guess)
  if n / d < twoTo 53 then guess else guess + 1

/-- The word of the double nearest to `num / den`, a tie going to the even mantissa. A mantissa
that rounds up to the next power of two carries into the exponent field by itself. -/
def nearestBits (num den : Nat) : Nat :=
  if num == 0 then 0
  else
    let exponent := exponentOf num den
    let (n, d) := scaled num den (-exponent)
    min ((exponent - leastExponent).toNat * twoTo 52 + roundDiv n d) (topField * twoTo 52)

def nearest (negative : Bool) (num den : Nat) : Float :=
  Float.ofBits (nearestBits num den + if negative then twoTo 63 else 0).toUInt64

def ofInt? (n : Int) : Option Float :=
  if nearestBits n.natAbs 1 == topField * twoTo 52 then none
  else some (nearest (n < 0) n.natAbs 1)

def wholePart : Binary64 → Except NoWholePart Int
  | .notANumber => .error .notANumber
  | .infinite _ => .error .infinite
  | .finite negative mantissa exponent =>
    let (n, d) := scaled mantissa 1 exponent
    .ok (if negative then -(n / d : Nat) else (n / d : Nat))

end Binary64

end ScopeComplexity.Decimal
