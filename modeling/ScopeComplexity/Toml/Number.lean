import ScopeComplexity.Decimal.Reader
import ScopeComplexity.Toml.Text
import ScopeComplexity.Value

namespace ScopeComplexity.Toml.Reader

def digitBelow? (base : Nat) (c : Char) : Option Nat := (hexValue? c).filter (· < base)

def moreDigits (base : Nat) : List Char → List Nat × List Char
  | '_' :: c :: rest =>
    match digitBelow? base c with
    | some d =>
      let (digits, tail) := moreDigits base rest
      (d :: digits, tail)
    | none => ([], '_' :: c :: rest)
  | c :: rest =>
    match digitBelow? base c with
    | some d =>
      let (digits, tail) := moreDigits base rest
      (d :: digits, tail)
    | none => ([], c :: rest)
  | [] => ([], [])

def digitRun (base : Nat) : List Char → List Nat × List Char
  | [] => ([], [])
  | c :: rest =>
    match digitBelow? base c with
    | some d =>
      let (digits, tail) := moreDigits base rest
      (d :: digits, tail)
    | none => ([], c :: rest)

def wholeDigits : List Char → List Nat × List Char
  | '0' :: rest => ([0], rest)
  | text => digitRun 10 text

def fractionDigits : List Char → List Nat × List Char
  | '.' :: rest =>
    match digitRun 10 rest with
    | ([], _) => ([], '.' :: rest)
    | found => found
  | text => ([], text)

def exponentPart (text : List Char) : Option Int × List Char :=
  match text with
  | c :: rest =>
    if c == 'e' || c == 'E' then
      let (negative, body) := Decimal.splitSign rest
      match digitRun 10 body with
      | ([], _) => (none, text)
      | (digits, tail) => (some (Decimal.applySign negative (Decimal.numeral digits)), tail)
    else (none, text)
  | [] => (none, [])

def basedNumber? (text : List Char) : Option (Value × List Char) :=
  let based (base : Nat) (rest : List Char) : Option (Value × List Char) :=
    match digitRun base rest with
    | ([], _) => none
    | (digits, tail) => some (.whole (digits.foldl (fun n d => base * n + d) 0 : Nat), tail)
  match text with
  | '0' :: 'x' :: rest => based 16 rest
  | '0' :: 'b' :: rest => based 2 rest
  | '0' :: 'o' :: rest => based 8 rest
  | _ => none

def decimalNumber? (text : List Char) : Option (Except Refusal Value × List Char) :=
  let (negative, body) := Decimal.splitSign text
  match wholeDigits body with
  | ([], _) => none
  | (whole, afterWhole) =>
    let (fraction, afterFraction) := fractionDigits afterWhole
    let (exponent, rest) := exponentPart afterFraction
    if fraction.isEmpty && exponent.isNone then
      if Decimal.mostDigits < whole.length then some (.error .numberTooLong, rest)
      else some (.ok (.whole (Decimal.applySign negative (Decimal.numeral whole))), rest)
    else
      let power := exponent.getD 0 - fraction.length
      some (.ok (.double (Decimal.nearestDecimal negative (Decimal.numeral (whole ++ fraction)) power)),
        rest)

def words : List (String × Float) :=
  let infinity := 1.0 / 0.0
  let notANumber := 0.0 / 0.0
  [("inf", infinity), ("+inf", infinity), ("-inf", -infinity), ("nan", notANumber),
    ("+nan", notANumber), ("-nan", notANumber)]

def number : Reader Value := do
  let text ← get
  match basedNumber? text with
  | some (v, rest) =>
    set rest
    return v
  | none =>
    match decimalNumber? text with
    | some (v, rest) =>
      set rest
      liftM v
    | none =>
      match words.find? fun word => word.1.toList.isPrefixOf text with
      | some (word, x) =>
        set (text.drop word.length)
        return .double x
      | none => refuse

end ScopeComplexity.Toml.Reader
