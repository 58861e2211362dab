import ScopeComplexity.Moment
import ScopeComplexity.Toml.Text

namespace ScopeComplexity.Toml.Reader

def field? (width : Nat) (text : List Char) : Option (Nat × List Char) :=
  let digits := text.take width
  if digits.length == width && digits.all Char.isDigit then
    some (digits.foldl (fun n c => 10 * n + (c.toNat - '0'.toNat)) 0, text.drop width)
  else none

def fieldWithin? (width least most : Nat) (text : List Char) : Option (Nat × List Char) :=
  (field? width text).filter fun (n, _) => least ≤ n && n ≤ most

def after? (c : Char) : List Char → Option (List Char)
  | [] => none
  | d :: rest => if d == c then some rest else none

def date? (text : List Char) : Option (Date × List Char) := do
  let (year, rest) ← field? 4 text
  let (month, rest) ← fieldWithin? 2 1 12 (← after? '-' rest)
  let (day, rest) ← fieldWithin? 2 1 31 (← after? '-' rest)
  return (⟨year, month, day⟩, rest)

def fractionWidth : Nat := 6

def microseconds (text : List Char) : Nat × List Char :=
  match text with
  | '.' :: rest =>
    let digits := rest.takeWhile Char.isDigit
    let counted := digits.take fractionWidth
    let filled := counted ++ List.replicate (fractionWidth - counted.length) '0'
    if digits.isEmpty then (0, text)
    else ((field? fractionWidth filled).elim 0 (·.1), rest.dropWhile Char.isDigit)
  | _ => (0, text)

def time? (text : List Char) : Option (TimeOfDay × List Char) := do
  let (hour, rest) ← fieldWithin? 2 0 23 text
  let (minute, rest) ← fieldWithin? 2 0 59 (← after? ':' rest)
  let (second, rest) ← fieldWithin? 2 0 59 (← after? ':' rest)
  let (microsecond, rest) := microseconds rest
  return (⟨hour, minute, second, microsecond⟩, rest)

def offsetMinutes? (text : List Char) : Option (Nat × List Char) := do
  let (hours, rest) ← fieldWithin? 2 0 23 text
  let (minutes, rest) ← fieldWithin? 2 0 59 (← after? ':' rest)
  return (60 * hours + minutes, rest)

def offset (text : List Char) : Option Int × List Char :=
  match text with
  | 'Z' :: rest | 'z' :: rest => (some 0, rest)
  | '+' :: rest => (offsetMinutes? rest).elim (none, text) fun (n, rest) => (some n, rest)
  | '-' :: rest => (offsetMinutes? rest).elim (none, text) fun (n, rest) => (some (-n), rest)
  | _ => (none, text)

def timeBehind? : List Char → Option (TimeOfDay × List Char)
  | 'T' :: rest | 't' :: rest | ' ' :: rest => time? rest
  | _ => none

def moment? (text : List Char) : Option (Moment × List Char) :=
  match date? text with
  | some (date, rest) =>
    match timeBehind? rest with
    | some (time, rest) =>
      let (ahead, rest) := offset rest
      some (.dateTime date time ahead, rest)
    | none => some (.date date, rest)
  | none => (time? text).map fun (time, rest) => (.time time, rest)

def isInCalendar : Moment → Bool
  | .date d => d.isValid
  | .time _ => true
  | .dateTime d _ _ => d.isValid

end ScopeComplexity.Toml.Reader
