import ScopeComplexity.Decimal.Layout

namespace ScopeComplexity.Json

inductive Document (α : Type) where
  | null
  | text (value : String)
  | count (value : Int)
  | amount (value : α)
  | list (items : List (Document α))
  | object (members : List (String × Document α))

structure Spacing where
  indent : Option Nat

def compact : Spacing := ⟨none⟩

def indented : Spacing := ⟨some 2⟩

def Spacing.lineBreak (spacing : Spacing) (depth : Nat) : String :=
  match spacing.indent with
  | none => ""
  | some width => "\n" ++ String.ofList (List.replicate (width * depth) ' ')

def Spacing.comma (spacing : Spacing) (depth : Nat) : String :=
  match spacing.indent with
  | none => ", "
  | some _ => "," ++ spacing.lineBreak depth

def amountLayout : Decimal.Layout := ⟨-4, 16, 2, "Infinity", "NaN"⟩

def unitHex (n : Nat) : String :=
  let digits := Nat.toDigits 16 n
  "\\u" ++ String.ofList (List.replicate (4 - digits.length) '0' ++ digits)

/-- Only printable ASCII stands for itself. Above the basic plane a character takes two units. -/
def escape (c : Char) : String :=
  let n := c.toNat
  if c == '"' then "\\\""
  else if c == '\\' then "\\\\"
  else if c == '\n' then "\\n"
  else if c == '\r' then "\\r"
  else if c == '\t' then "\\t"
  else if n == 0x08 then "\\b"
  else if n == 0x0c then "\\f"
  else if 0x20 ≤ n && n < 0x7f then c.toString
  else if n < 0x10000 then unitHex n
  else
    let offset := n - 0x10000
    unitHex (0xd800 + offset / 0x400) ++ unitHex (0xdc00 + offset % 0x400)

def appendText (written text : String) : String :=
  (text.foldl (fun written c => written ++ escape c) (written ++ "\"")) ++ "\""

mutual

def Document.append (spacing : Spacing) (depth : Nat) (written : String) : Document Float → String
  | .null => written ++ "null"
  | .text value => appendText written value
  | .count value => written ++ toString value
  | .amount value => written ++ amountLayout.write value
  | .list [] => written ++ "[]"
  | .list (item :: items) =>
    let first := item.append spacing (depth + 1) (written ++ "[" ++ spacing.lineBreak (depth + 1))
    appendItems spacing (depth + 1) first items ++ spacing.lineBreak depth ++ "]"
  | .object [] => written ++ "\x7b\x7d"
  | .object ((key, value) :: members) =>
    let begun := appendText (written ++ "\x7b" ++ spacing.lineBreak (depth + 1)) key ++ ": "
    let first := value.append spacing (depth + 1) begun
    appendMembers spacing (depth + 1) first members ++ spacing.lineBreak depth ++ "\x7d"

def appendItems (spacing : Spacing) (depth : Nat) (written : String) :
    List (Document Float) → String
  | [] => written
  | item :: items =>
    appendItems spacing depth (item.append spacing depth (written ++ spacing.comma depth)) items

def appendMembers (spacing : Spacing) (depth : Nat) (written : String) :
    List (String × Document Float) → String
  | [] => written
  | (key, value) :: members =>
    let begun := appendText (written ++ spacing.comma depth) key ++ ": "
    appendMembers spacing depth (value.append spacing depth begun) members

end

def Document.write (spacing : Spacing) (d : Document Float) : String := d.append spacing 0 ""

end ScopeComplexity.Json
