namespace ScopeComplexity

/-- Where a path starts. Exactly two slashes make a root of their own. -/
inductive Path.Root where
  | none
  | slash
  | doubleSlash
  deriving DecidableEq

def Path.Root.text : Path.Root → String
  | .none => ""
  | .slash => "/"
  | .doubleSlash => "//"

structure Path where
  root : Path.Root := .none
  parts : List String
  deriving DecidableEq

namespace Path

def splitAt (separator : Char) : List Char → List (List Char)
  | [] => [[]]
  | c :: rest =>
    if c == separator then [] :: splitAt separator rest
    else
      match splitAt separator rest with
      | [] => [[c]]
      | piece :: pieces => (c :: piece) :: pieces

def rootOf (text : List Char) : Root :=
  match (text.takeWhile (· == '/')).length with
  | 0 => .none
  | 2 => .doubleSlash
  | _ => .slash

def isPart (piece : List Char) : Bool := piece != [] && piece != ['.']

def ofText (text : String) : Path where
  root := rootOf text.toList
  parts := ((splitAt '/' text.toList).filter isPart).map String.ofList

def shown (p : Path) : String :=
  if p.root = .none && p.parts.isEmpty then "." else p.root.text ++ "/".intercalate p.parts

def size (p : Path) : Nat := p.shown.utf8ByteSize

def hasNull (p : Path) : Bool := p.shown.contains '\x00'

def components (p : Path) : List String :=
  if p.root = .none then p.parts else p.root.text :: p.parts

def leParts : List String → List String → Bool
  | [], _ => true
  | _ :: _, [] => false
  | a :: as, b :: bs => a < b || (a == b && leParts as bs)

def le (a b : Path) : Bool := leParts a.components b.components

def child (p : Path) (name : String) : Path := { p with parts := p.parts ++ [name] }

def name (p : Path) : String := p.parts.getLast?.getD ""

def suffixOf (name : List Char) : List Char :=
  let tail := (name.reverse.takeWhile (· != '.')).reverse
  if tail.isEmpty || name.length ≤ tail.length + 1 then [] else '.' :: tail

def suffix (p : Path) : String := String.ofList (suffixOf p.name.toList)

example : (ofText "a//b/./c/").shown = "a/b/c" := by decide

example : (ofText "//x/../y").shown = "//x/../y" ∧ (ofText "///x").shown = "/x" := by
  decide

example : (ofText "x/.py").suffix = "" ∧ (ofText "..py").suffix = ".py" ∧
    (ofText "a.tar.gz").suffix = ".gz" ∧ (ofText "a.").suffix = "" := by
  decide

end Path

end ScopeComplexity
