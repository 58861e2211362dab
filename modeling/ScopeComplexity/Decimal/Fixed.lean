import ScopeComplexity.Decimal.Binary64

namespace ScopeComplexity.Decimal

def pointed (places n : Nat) : String :=
  let digits := (toString n).toList
  let padded := List.replicate (places + 1 - digits.length) '0' ++ digits
  let whole := padded.length - places
  String.ofList (padded.take whole) ++ "." ++ String.ofList (padded.drop whole)

def fixed (places : Nat) (x : Float) : String :=
  match Binary64.ofFloat x with
  | .notANumber => "nan"
  | .infinite negative => if negative then "-inf" else "inf"
  | .finite negative mantissa exponent =>
    let (n, d) := Binary64.scaled (mantissa * tenTo places) 1 exponent
    let text := pointed places (roundDiv n d)
    if negative then "-" ++ text else text

def dropTrailing (c : Char) (text : List Char) : List Char :=
  (text.reverse.dropWhile (· == c)).reverse

def trimFraction (text : String) : String :=
  String.ofList (dropTrailing '.' (dropTrailing '0' text.toList))

def brief (x : Float) : String := trimFraction (fixed 2 x)

end ScopeComplexity.Decimal
