import ScopeComplexity.Decimal.Reader
import ScopeComplexity.Measure
import ScopeComplexity.Moment
import ScopeComplexity.Path
import ScopeComplexity.Text.Quoted

/-!
Values as settings hold them before anything is known of their types, their texts, and the few operations
that settings need of them. Each operation is defined where it makes sense and names the types where
it does not.
-/

namespace ScopeComplexity

inductive Value where
  | null
  | flag (value : Bool)
  | whole (value : Int)
  | double (value : Float)
  | text (value : String)
  | path (value : Path)
  | moment (value : Moment)
  | list (items : List Value)
  | table (entries : List (Value × Value))

namespace Value

def flagText (value : Bool) : String := if value then "True" else "False"

mutual

def quoted : Value → String
  | .null => "None"
  | .flag value => flagText value
  | .whole value => toString value
  | .double value => metricText value
  | .text value => Text.quoted value
  | .path value => "PosixPath(" ++ Text.quoted value.shown ++ ")"
  | .moment value => value.quoted
  | .list items => "[" ++ ", ".intercalate (quotedItems items) ++ "]"
  | .table entries => "\x7b" ++ ", ".intercalate (quotedEntries entries) ++ "\x7d"

def quotedItems : List Value → List String
  | [] => []
  | item :: items => quoted item :: quotedItems items

def quotedEntries : List (Value × Value) → List String
  | [] => []
  | (key, value) :: entries => (quoted key ++ ": " ++ quoted value) :: quotedEntries entries

end

def shown : Value → String
  | .text value => value
  | .path value => value.shown
  | .moment value => value.shown
  | v => v.quoted

mutual

/-- Whether a value has a text at all. A whole number of more digits than are read back has none. -/
def hasText : Value → Bool
  | .whole value => value.natAbs < Decimal.tenTo Decimal.mostDigits
  | .list items => haveText items
  | .table entries => entriesHaveText entries
  | _ => true

def haveText : List Value → Bool
  | [] => true
  | item :: items => hasText item && haveText items

def entriesHaveText : List (Value × Value) → Bool
  | [] => true
  | (key, value) :: entries => hasText key && hasText value && entriesHaveText entries

end

def typeName : Value → String
  | .null => "NoneType"
  | .flag _ => "bool"
  | .whole _ => "int"
  | .double _ => "float"
  | .text _ => "str"
  | .path _ => "PosixPath"
  | .moment value => value.typeName
  | .list _ => "list"
  | .table _ => "dict"

def isTrue : Value → Bool
  | .null => false
  | .flag value => value
  | .whole value => value != 0
  | .double value => value != 0.0
  | .text value => !value.isEmpty
  | .path _ => true
  | .moment _ => true
  | .list items => !items.isEmpty
  | .table entries => !entries.isEmpty

def isText (text : String) : Value → Bool
  | .text value => value == text
  | _ => false

inductive Number where
  | whole (value : Int)
  | double (value : Float)

def number? : Value → Option Number
  | .flag value => some (.whole (if value then 1 else 0))
  | .whole value => some (.whole value)
  | .double value => some (.double value)
  | _ => none

inductive Misuse where
  | compared (operator left right : String)
  | iterated (type : String)
  | searched (type : String)
  | indexed (type : String)
  | interned (type : String)
  | multiplied (type : String)
  | lacking (type ability : String)
  | noEntry (key : String)
  | joined
  | joinedItem (place : Nat) (type : String)
  | cutAt
  deriving DecidableEq

def Misuse.message : Misuse → String
  | .compared operator left right =>
    "'" ++ operator ++ "' not supported between instances of '" ++ left ++ "' and '" ++ right ++ "'"
  | .iterated type => "'" ++ type ++ "' object is not iterable"
  | .searched type => "argument of type '" ++ type ++ "' is not iterable"
  | .indexed type => "'" ++ type ++ "' object is not subscriptable"
  | .interned type => "intern() argument must be str, not " ++ type
  | .multiplied type => "unsupported operand type(s) for *: '" ++ type ++ "' and 'int'"
  | .lacking type ability => "'" ++ type ++ "' object has no attribute '" ++ ability ++ "'"
  | .noEntry key => key
  | .joined => "can only join an iterable"
  | .joinedItem place type =>
    "sequence item " ++ toString place ++ ": expected str instance, " ++ type ++ " found"
  | .cutAt => "slice indices must be integers or None or have an __index__ method"

def Misuse.isOfType : Misuse → Bool
  | .lacking .. | .noEntry _ => false
  | _ => true

/-- Compares a value with a whole number that is exact as a double. -/
def compare (operator : String) (wholes : Int → Int → Bool) (doubles : Float → Float → Bool)
    (v : Value) (bound : Int) : Except Misuse Bool :=
  match v.number? with
  | some (.whole value) => .ok (wholes value bound)
  | some (.double value) =>
    .ok (doubles value (Decimal.Binary64.nearest (bound < 0) bound.natAbs 1))
  | none => .error (.compared operator v.typeName "int")

def less : Value → Int → Except Misuse Bool := compare "<" (· < ·) (· < ·)

def lessOrEqual : Value → Int → Except Misuse Bool := compare "<=" (· ≤ ·) (· ≤ ·)

def more : Value → Int → Except Misuse Bool := compare ">" (· > ·) (· > ·)

def exceededBy (v : Value) (n : Int) : Except Misuse Bool :=
  match v.less n with
  | .error _ => .error (.compared ">" "int" v.typeName)
  | found => found

def equals (v : Value) (n : Int) : Bool := (compare "==" (· == ·) (· == ·) v n).toOption.getD false

def characters (text : String) : List Value := text.toList.map fun c => .text c.toString

def items : Value → Except Misuse (List Value)
  | .list items => .ok items
  | .table entries => .ok (entries.map (·.1))
  | .text value => .ok (characters value)
  | v => .error (.iterated v.typeName)

def atZero : Value → Except Misuse Value
  | .list (item :: _) => .ok item
  | .table entries =>
    match entries.find? fun entry => entry.1.equals 0 with
    | some entry => .ok entry.2
    | none => .error (.noEntry "0")
  | v => .error (.indexed v.typeName)

def textsFrom (place : Nat) : List Value → Except Misuse (List String)
  | [] => .ok []
  | .text value :: items => (textsFrom (place + 1) items).map (value :: ·)
  | item :: _ => .error (.joinedItem place item.typeName)

def texts (v : Value) : Except Misuse (List String) :=
  match v.items with
  | .ok items => textsFrom 0 items
  | .error _ => .error .joined

def isInfix (part whole : List Char) : Bool :=
  match whole with
  | [] => part.isEmpty
  | _ :: rest => part.isPrefixOf whole || isInfix part rest

def holds (v : Value) (text : String) : Except Misuse Bool :=
  match v with
  | .list items => .ok (items.any (isText text))
  | .table entries => .ok (entries.any fun entry => isText text entry.1)
  | .text value => .ok (isInfix text.toList value.toList)
  | v => .error (.searched v.typeName)

end Value

end ScopeComplexity
