import ScopeComplexity.Decimal.Shortest

namespace ScopeComplexity.Decimal

structure Layout where
  positionalFrom : Int
  exponentFrom : Int
  exponentDigits : Nat
  infinity : String
  notANumber : String

namespace Layout

def zeros (n : Nat) : String := String.ofList (List.replicate n '0')

def signed (negative : Bool) (text : String) : String :=
  if negative then "-" ++ text else text

def exponentText (layout : Layout) (exponent : Int) : String :=
  let digits := toString exponent.natAbs
  let sign := if exponent < 0 then "-" else "+"
  "e" ++ sign ++ zeros (layout.exponentDigits - digits.length) ++ digits

def positive (layout : Layout) (s : Scientific) : String :=
  let digits := (toString s.coefficient).toList
  let lead := s.exponent + digits.length - 1
  if lead < layout.positionalFrom || layout.exponentFrom ≤ lead then
    let fraction := if digits.length == 1 then "" else "." ++ String.ofList (digits.drop 1)
    String.ofList (digits.take 1) ++ fraction ++ layout.exponentText lead
  else if lead < 0 then
    "0." ++ zeros (lead.natAbs - 1) ++ String.ofList digits
  else
    let whole := lead.toNat + 1
    if digits.length ≤ whole then
      String.ofList digits ++ zeros (whole - digits.length) ++ ".0"
    else
      String.ofList (digits.take whole) ++ "." ++ String.ofList (digits.drop whole)

def write (layout : Layout) (x : Float) : String :=
  match Binary64.ofFloat x with
  | .notANumber => layout.notANumber
  | .infinite negative => signed negative layout.infinity
  | .finite negative mantissa exponent =>
    signed negative <|
      if mantissa == 0 then "0.0" else layout.positive (shortest mantissa exponent)

end Layout

end ScopeComplexity.Decimal
