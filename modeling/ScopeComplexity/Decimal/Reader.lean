import ScopeComplexity.Decimal.Binary64
import ScopeComplexity.Text.Blank
import ScopeComplexity.Text.Digit

namespace ScopeComplexity.Decimal

inductive NotInteger where
  | malformed
  | tooLong (digits : Nat)
  deriving DecidableEq

def mostDigits : Nat := 4300

/-- White space around a number: of the ASCII separators only the space, tabs and line ends count. -/
def isNumberBlank (c : Char) : Bool :=
  Text.isBlank c && !(0x1c ≤ c.toNat && c.toNat ≤ 0x1f)

def splitSign : List Char → Bool × List Char
  | '-' :: rest => (true, rest)
  | '+' :: rest => (false, rest)
  | text => (false, text)

def splitDigitsFrom (afterDigit : Bool) : List Char → List Nat × List Char
  | [] => ([], [])
  | c :: rest =>
    match Text.digitValue? c with
    | some d =>
      let (digits, tail) := splitDigitsFrom true rest
      (d :: digits, tail)
    | none =>
      if afterDigit && c == '_' then
        match splitDigitsFrom false rest with
        | ([], _) => ([], c :: rest)
        | found => found
      else ([], c :: rest)

def splitDigits : List Char → List Nat × List Char := splitDigitsFrom false

def numeral (digits : List Nat) : Nat := digits.foldl (fun n d => 10 * n + d) 0

def applySign (negative : Bool) (n : Nat) : Int := if negative then -n else n

/-- A whole number with an optional sign. A misplaced underscore is noticed before too many digits are, and
these before anything else that follows them. -/
def readInt (text : String) : Except NotInteger Int :=
  let (negative, body) := splitSign (Text.trimEnds isNumberBlank text.toList)
  let (digits, rest) := splitDigits body
  if rest.head? == some '_' then .error .malformed
  else if mostDigits < digits.length then .error (.tooLong digits.length)
  else if digits.isEmpty || !rest.isEmpty then .error .malformed
  else .ok (applySign negative (numeral digits))

/-- The double nearest to `coefficient · 10 ^ exponent`. Far outside the range of doubles the power of ten
is not needed to know the answer: a bit is worth less than a third and more than three tenths of a
digit. -/
def nearestDecimal (negative : Bool) (coefficient : Nat) (exponent : Int) : Float :=
  let bits : Int := coefficient.log2
  if coefficient == 0 || bits / 3 + 1 + exponent < -400 then Binary64.nearest negative 0 1
  else if 400 < 3 * bits / 10 + exponent then Binary64.nearest negative (tenTo 400) 1
  else if exponent < 0 then Binary64.nearest negative coefficient (tenTo exponent.natAbs)
  else Binary64.nearest negative (coefficient * tenTo exponent.natAbs) 1

def splitExponent : List Char → Option (Int × List Char)
  | 'e' :: rest | 'E' :: rest =>
    let (negative, body) := splitSign rest
    match splitDigits body with
    | ([], _) => none
    | (digits, tail) => some (applySign negative (numeral digits), tail)
  | text => some (0, text)

def splitFraction : List Char → List Nat × List Char
  | '.' :: rest => splitDigits rest
  | text => ([], text)

def readUnsigned (negative : Bool) (body : List Char) : Option Float :=
  let (whole, afterWhole) := splitDigits body
  let (fraction, afterFraction) := splitFraction afterWhole
  if whole.isEmpty && fraction.isEmpty then none
  else
    match splitExponent afterFraction with
    | some (exponent, []) =>
      some (nearestDecimal negative (numeral (whole ++ fraction)) (exponent - fraction.length))
    | _ => none

def readFloat? (text : String) : Option Float :=
  let (negative, body) := splitSign (Text.trimEnds isNumberBlank text.toList)
  let word := String.ofList (body.map Char.toLower)
  if word == "inf" || word == "infinity" then
    some (if negative then -1.0 / 0.0 else 1.0 / 0.0)
  else if word == "nan" then some (0.0 / 0.0)
  else readUnsigned negative body

end ScopeComplexity.Decimal
