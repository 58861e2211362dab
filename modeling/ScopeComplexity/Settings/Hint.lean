import ScopeComplexity.Decimal.Reader
import ScopeComplexity.Value

namespace ScopeComplexity

inductive Hint where
  | whole
  | double
  | flag
  | text
  /-- One of some words, which are not checked here. -/
  | choice
  | list
  | table
  | nothing
  | optional (inner : Hint)

inductive Hint.Refusal where
  | notWhole (given : String)
  | tooLong (digits : Nat)
  | notDouble (given : String)
  | notFlag (given : String)
  deriving DecidableEq

def Hint.Refusal.shownLength : Nat := 200

def Hint.Refusal.message : Hint.Refusal → String
  | .notWhole given =>
    "invalid literal for int() with base 10: "
      ++ String.ofList ((Text.quoted given).toList.take shownLength)
  | .tooLong digits =>
    "Exceeds the limit (" ++ toString Decimal.mostDigits
      ++ " digits) for integer string conversion: value has " ++ toString digits
      ++ " digits; use sys.set_int_max_str_digits() to increase the limit"
  | .notDouble given => "could not convert string to float: " ++ Text.quoted given
  | .notFlag given => "expected true/false, got '" ++ given ++ "'"

namespace Hint

def trueWords : List String := ["true", "1", "yes", "on"]

def falseWords : List String := ["false", "0", "no", "off"]

/-- The words are ASCII, and no other letter becomes one of theirs in lower case. -/
def readFlag (given : String) : Except Refusal Bool :=
  let word := String.ofList (given.toList.map Char.toLower)
  if trueWords.contains word then .ok true
  else if falseWords.contains word then .ok false
  else .error (.notFlag given)

def pieces (given : String) : List String :=
  ((Path.splitAt ',' given.toList).map fun piece => Text.trim (String.ofList piece)).filter (· != "")

/-- The value that a text stands for, or none if texts of this kind set nothing. Of the lists only that of
the languages can be set. -/
def read (field given : String) : Hint → Except Refusal (Option Value)
  | .optional inner => read field given inner
  | .list =>
    if field == "languages" then
      match pieces given with
      | [] => .ok none
      | names => .ok (some (.list (names.map .text)))
    else .ok none
  | .flag => (readFlag given).map fun b => some (.flag b)
  | .whole =>
    match Decimal.readInt given with
    | .ok n => .ok (some (.whole n))
    | .error .malformed => .error (.notWhole given)
    | .error (.tooLong digits) => .error (.tooLong digits)
  | .double =>
    match Decimal.readFloat? given with
    | some x => .ok (some (.double x))
    | none => .error (.notDouble given)
  | .text | .choice => .ok (some (.text given))
  | .table | .nothing => .ok none

end Hint

end ScopeComplexity
