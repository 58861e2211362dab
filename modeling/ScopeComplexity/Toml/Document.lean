import ScopeComplexity.Toml.Moment
import ScopeComplexity.Toml.Number

/-!
TOML documents. A document is a table that its statements fill in order: a header opens a table or appends
one to an array of tables, and every pair of key and value goes into the table opened last. Marks on the
paths keep a table from being opened twice and values written in one piece from being extended.
-/

namespace ScopeComplexity.Toml

abbrev Key := List String

abbrev Entries := List (Value × Value)

namespace Entries

def get? (entries : Entries) (name : String) : Option Value :=
  (entries.find? fun entry => entry.1.isText name).map (·.2)

def put (entries : Entries) (name : String) (v : Value) : Entries :=
  if (get? entries name).isSome then
    entries.map fun entry => if entry.1.isText name then (entry.1, v) else entry
  else entries ++ [(.text name, v)]

/-- Changes the table at a path, which is made where it is missing. Under an array of tables the path goes
on in its last one. Nothing lies below any other value. -/
def changeAt (intoArrays : Bool) (change : Entries → Option Entries) : Key → Entries → Option Entries
  | [], entries => change entries
  | name :: path, entries =>
    match get? entries name with
    | none => (changeAt intoArrays change path []).map fun inner => put entries name (.table inner)
    | some (.table inner) =>
      (changeAt intoArrays change path inner).map fun inner => put entries name (.table inner)
    | some (.list items) =>
      match items.getLast? with
      | some (.table inner) =>
        if intoArrays then
          (changeAt intoArrays change path inner).map fun inner =>
            put entries name (.list (items.dropLast ++ [.table inner]))
        else none
      | _ => none
    | some _ => none

def addNew (name : String) (v : Value) (entries : Entries) : Option Entries :=
  if (get? entries name).isSome then none else some (put entries name v)

def addTable (name : String) (entries : Entries) : Option Entries :=
  match get? entries name with
  | none => some (put entries name (.list [.table []]))
  | some (.list items) => some (put entries name (.list (items ++ [.table []])))
  | some _ => none

end Entries

def Key.split (key : Key) : Key × String := (key.dropLast, key.getLast?.getD "")

structure Marks where
  closed : List Key := []
  /-- Values written in one piece, below which nothing can be added. -/
  frozen : List Key := []
  /-- Tables made by dotted keys, closed at the next header. -/
  pending : List Key := []

namespace Marks

def isFrozen (m : Marks) (key : Key) : Bool := m.frozen.any (·.isPrefixOf key)

def isClosed (m : Marks) (key : Key) : Bool := m.closed.contains key

def atHeader (m : Marks) : Marks :=
  { m with closed := m.pending ++ m.closed, pending := [] }

def close (m : Marks) (key : Key) : Marks := { m with closed := key :: m.closed }

def forget (m : Marks) (key : Key) : Marks :=
  { m with
    closed := m.closed.filter fun k => !key.isPrefixOf k
    frozen := m.frozen.filter fun k => !key.isPrefixOf k }

def freezeIfCompound (m : Marks) (key : Key) : Value → Marks
  | .list _ | .table _ => { m with frozen := key :: m.frozen }
  | _ => m

end Marks

namespace Reader

def isBareKeyChar (c : Char) : Bool := c.isAlphanum || c == '-' || c == '_'

def keyPart : Reader String := do
  match ← peek with
  | some '\'' => plainText
  | some '"' => escapedText
  | _ =>
    match ← takeWhile isBareKeyChar with
    | [] => refuse
    | name => return String.ofList name

def keyParts : Nat → Reader Key
  | 0 => return []
  | rounds + 1 => do
    skipBlanks
    if ← accept "." then
      skipBlanks
      let name ← keyPart
      return name :: (← keyParts rounds)
    else return []

def key : Reader Key := do
  let first ← keyPart
  return first :: (← keyParts (← rounds))

mutual

/-- A value, read in so many rounds at most; each value inside another one has a round less. An array takes two
steps of the room for nesting, and an inline table three. -/
def value : Nat → Nat → Reader Value
  | 0, _ => refuse
  | rounds + 1, room => do
    let text ← get
    match text with
    | '"' :: '"' :: '"' :: _ => return .text (← escapedTextLines)
    | '"' :: _ => return .text (← escapedText)
    | '\'' :: '\'' :: '\'' :: _ => return .text (← plainTextLines)
    | '\'' :: _ => return .text (← plainText)
    | '[' :: rest =>
      if room < 2 then throw .nestedTooDeep
      set rest
      skipFiller rounds
      if ← accept "]" then return .list []
      return .list (← items rounds (room - 2))
    | '\x7b' :: rest =>
      if room < 3 then throw .nestedTooDeep
      set rest
      skipBlanks
      if ← accept "\x7d" then return .table []
      return .table (← inlineEntries rounds (room - 3) [] {})
    | _ =>
      if ← accept "true" then return .flag true
      else if ← accept "false" then return .flag false
      else
        match moment? text with
        | some (m, rest) =>
          if !isInCalendar m then refuse
          set rest
          return .moment m
        | none => number

def items : Nat → Nat → Reader (List Value)
  | 0, _ => refuse
  | rounds + 1, room => do
    let item ← value rounds room
    skipFiller rounds
    if ← accept "]" then return [item]
    expect ","
    skipFiller rounds
    if ← accept "]" then return [item]
    return item :: (← items rounds room)

def pair : Nat → Nat → Reader (Key × Value)
  | 0, _ => refuse
  | rounds + 1, room => do
    let name ← key
    expect "="
    skipBlanks
    return (name, ← value rounds room)

def inlineEntries : Nat → Nat → Entries → Marks → Reader Entries
  | 0, _, _, _ => refuse
  | rounds + 1, room, entries, marks => do
    let (name, v) ← pair rounds room
    if marks.isFrozen name then refuse
    let (path, last) := name.split
    match entries.changeAt false (Entries.addNew last v) path with
    | none => refuse
    | some entries =>
      skipBlanks
      if ← accept "\x7d" then return entries
      expect ","
      skipBlanks
      inlineEntries rounds room entries (marks.freezeIfCompound name v)

end

def nestingRoom : Nat := 980

structure State where
  entries : Entries := []
  marks : Marks := {}
  header : Key := []

def tableHeader (s : State) : Reader State := do
  expect "["
  skipBlanks
  let name ← key
  if s.marks.isClosed name || s.marks.isFrozen name then refuse
  match s.entries.changeAt true some name with
  | none => refuse
  | some entries =>
    expect "]"
    return ⟨entries, s.marks.close name, name⟩

def arrayHeader (s : State) : Reader State := do
  expect "[["
  skipBlanks
  let name ← key
  if s.marks.isFrozen name then refuse
  let (path, last) := name.split
  match s.entries.changeAt true (Entries.addTable last) path with
  | none => refuse
  | some entries =>
    expect "]]"
    return ⟨entries, (s.marks.forget name).close name, name⟩

def passed (header path : Key) : List Key :=
  (List.range path.length).map fun i => header ++ path.take (i + 1)

def keyValue (s : State) : Reader State := do
  let (name, v) ← pair (← rounds) nestingRoom
  let (path, last) := name.split
  let through := passed s.header path
  if through.any s.marks.isClosed || s.marks.isFrozen (s.header ++ path) then refuse
  match s.entries.changeAt true (Entries.addNew last v) (s.header ++ path) with
  | none => refuse
  | some entries =>
    let marks := { s.marks with pending := through ++ s.marks.pending }
    return { s with entries, marks := marks.freezeIfCompound (s.header ++ name) v }

def statement (s : State) : Reader State := do
  match ← get with
  | '[' :: '[' :: _ => arrayHeader { s with marks := s.marks.atHeader }
  | '[' :: _ => tableHeader { s with marks := s.marks.atHeader }
  | '#' :: _ => return s
  | _ => keyValue s

def lines : Nat → State → Reader State
  | 0, s => return s
  | rounds + 1, s => do
    skipBlanks
    if (← get).isEmpty then return s
    if ← accept "\n" then lines rounds s
    else
      let s ← statement s
      skipBlanks
      skipComment
      if (← get).isEmpty then return s
      expect "\n"
      lines rounds s

end Reader

def joinLineEnds : List Char → List Char
  | '\r' :: '\n' :: rest => '\n' :: joinLineEnds rest
  | c :: rest => c :: joinLineEnds rest
  | [] => []

def read (text : String) : Except Refusal Entries :=
  let source := joinLineEnds text.toList
  let size := source.length
  ((Reader.lines (size + 1) {}).run size |>.run source).map (·.1.entries)

end ScopeComplexity.Toml
