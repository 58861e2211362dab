import ScopeComplexity.Decimal.Binary64

/-!
The fewest decimal digits that read back as a given double, and of those the nearest to it. Grids of
one, two, up to seventeen digits are tried in turn; on each only the two points next to the
double can do, and both are compared with it in whole numbers.
-/

namespace ScopeComplexity.Decimal

structure Scientific where
  coefficient : Nat
  exponent : Int
  deriving DecidableEq

def digitCount (n : Nat) : Nat := (Nat.toDigits 10 n).length

def Scientific.trimmed (s : Scientific) : Scientific :=
  go s.coefficient s.coefficient s.exponent
where
  go : Nat → Nat → Int → Scientific
    | 0, c, e => ⟨c, e⟩
    | fuel + 1, c, e => if c != 0 && c % 10 == 0 then go fuel (c / 10) (e + 1) else ⟨c, e⟩

def scaledByTen (num den : Nat) (power : Int) : Nat × Nat :=
  if power < 0 then (num, den * tenTo power.natAbs) else (num * tenTo power.natAbs, den)

def leadingExponent (num den : Nat) : Int :=
  let guess := (digitCount num : Int) - digitCount den
  let (n, d) := scaledByTen num den (-guess)
  if n < d then guess - 1 else guess

/-- The numbers that round to a double, as quotients over one denominator. -/
structure RoundingInterval where
  low : Nat
  value : Nat
  high : Nat
  denominator : Nat
  closed : Bool

namespace RoundingInterval

/-- Below a power of two the neighbouring double is half as far away as above it. -/
def ofMantissa (mantissa : Nat) (exponent : Int) : RoundingInterval :=
  let below := if mantissa == twoTo 52 && Binary64.leastExponent < exponent then 1 else 2
  let (factor, denominator) := Binary64.scaled 1 1 (exponent - 2)
  { low := (4 * mantissa - below) * factor
    value := 4 * mantissa * factor
    high := (4 * mantissa + 2) * factor
    denominator
    closed := mantissa % 2 == 0 }

def contains (i : RoundingInterval) (num den : Nat) : Bool :=
  let point := num * i.denominator
  let low := i.low * den
  let high := i.high * den
  if i.closed then low ≤ point && point ≤ high else low < point && point < high

def hitOn (i : RoundingInterval) (place : Int) : Option Scientific :=
  let (n, d) := scaledByTen i.value i.denominator (-place)
  let under := n / d
  let reads (c : Nat) : Bool :=
    let (num, den) := scaledByTen c 1 place
    i.contains num den
  let near := roundDiv n d
  let far := if near == under then under + 1 else under
  if near != 0 && reads near then some ⟨near, place⟩
  else if far != 0 && reads far then some ⟨far, place⟩
  else none

def shortest (i : RoundingInterval) : Scientific :=
  let lead := leadingExponent i.value i.denominator
  let tries := (List.range 17).findSome? fun (more : Nat) => i.hitOn (lead - more)
  (tries.getD ⟨i.value, 0⟩).trimmed

end RoundingInterval

def shortest (mantissa : Nat) (exponent : Int) : Scientific :=
  (RoundingInterval.ofMantissa mantissa exponent).shortest

end ScopeComplexity.Decimal
