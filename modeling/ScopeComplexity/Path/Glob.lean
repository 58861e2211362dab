import ScopeComplexity.Path

/-!
Glob patterns. A pattern is split into components like a path, and each component is compared with one
component of the path: `*` stands for any text, `?` for any character, and a bracketed set for one of
its characters. A set may hold ranges; a reversed range holds nothing.
-/

namespace ScopeComplexity

inductive Glob.Piece where
  | anyText
  | anyChar
  | literal (c : Char)
  | set (negated : Bool) (singles : List Char) (ranges : List (Char × Char))

namespace Glob

/-- The stretches of a set between the hyphens that make ranges. A hyphen makes none when fewer than `least`
characters stand before it or nothing stands behind it. -/
def stretches (least : Nat) (text : List Char) : List (List Char) :=
  match _h : (text.drop least).dropWhile (· != '-') with
  | [] => [text]
  | [_] => [text]
  | _ :: next =>
    (text.take least ++ (text.drop least).takeWhile (· != '-')) :: stretches 2 next
termination_by text.length
decreasing_by
  have := (List.dropWhile_sublist (l := text.drop least) (· != '-')).length_le
  rw [_h, List.length_cons, List.length_drop] at this
  omega

/-- Puts a stretch before others. Where the range between them is reversed, both of its ends vanish and the
stretches become one. -/
def joinStretch (stretch : List Char) : List (List Char) → List (List Char)
  | [] => [stretch]
  | next :: rest =>
    match stretch.getLast?, next.head? with
    | some low, some high =>
      if high < low then (stretch.dropLast ++ next.tail) :: rest else stretch :: next :: rest
    | _, _ => stretch :: next :: rest

def rangesOf : List (List Char) → List (Char × Char)
  | stretch :: next :: rest =>
    match stretch.getLast?, next.head? with
    | some low, some high => (low, high) :: rangesOf (next :: rest)
    | _, _ => rangesOf (next :: rest)
  | _ => []

def setOf (negated : Bool) (stretches : List (List Char)) : Piece :=
  .set negated stretches.flatten (rangesOf stretches)

/-- A set from what stands in its brackets. Whether it is negated shows only when reversed ranges are gone. A
hyphen right after the mark of negation makes no range. -/
def ofBrackets (text : List Char) : Piece :=
  let least := if text.head? == some '!' then 2 else 1
  match (stretches least text).foldr joinStretch [] with
  | ['!'] :: stretch :: rest => setOf true (('-' :: stretch) :: rest)
  | ('!' :: stretch) :: rest => setOf true (stretch :: rest)
  | stretches => setOf false stretches

def splitLeading (c : Char) (text : List Char) : List Char × List Char :=
  match text with
  | [] => ([], [])
  | d :: rest => if d == c then ([c], rest) else ([], text)

def splitBrackets (text : List Char) : Option (List Char × List Char) :=
  let (mark, afterMark) := splitLeading '!' text
  let (bracket, afterBracket) := splitLeading ']' afterMark
  match afterBracket.dropWhile (· != ']') with
  | [] => none
  | _ :: rest => some (mark ++ bracket ++ afterBracket.takeWhile (· != ']'), rest)

theorem splitLeading_length (c : Char) (text : List Char) :
    (splitLeading c text).2.length ≤ text.length := by
  cases text with
  | nil => simp [splitLeading]
  | cons d rest => simp only [splitLeading]; split <;> simp

theorem length_lt_of_splitBrackets {text inside rest : List Char}
    (h : splitBrackets text = some (inside, rest)) : rest.length < text.length := by
  have bang := splitLeading_length '!' text
  have bracket := splitLeading_length ']' (splitLeading '!' text).2
  simp only [splitBrackets] at h
  split at h
  · exact absurd h (by simp)
  next _ c tail found =>
    simp only [Option.some.injEq, Prod.mk.injEq] at h
    have := (List.dropWhile_sublist (l := (splitLeading ']' (splitLeading '!' text).2).2)
      (· != ']')).length_le
    rw [found, h.2, List.length_cons] at this
    omega

def pieces : List Char → List Piece
  | [] => []
  | '*' :: rest => .anyText :: pieces rest
  | '?' :: rest => .anyChar :: pieces rest
  | '[' :: rest =>
    match _h : splitBrackets rest with
    | none => .literal '[' :: pieces rest
    | some (inside, after) => ofBrackets inside :: pieces after
  | c :: rest => .literal c :: pieces rest
termination_by text => text.length
decreasing_by
  all_goals simp only [List.length_cons]
  all_goals first
    | omega
    | exact Nat.lt_succ_of_lt (length_lt_of_splitBrackets ‹_›)

def Piece.accepts (c : Char) : Piece → Bool
  | .anyText => true
  | .anyChar => true
  | .literal d => c == d
  | .set negated singles ranges =>
    negated ^^ (singles.contains c || ranges.any fun (low, high) => low ≤ c && c ≤ high)

def ends : List Char → List (List Char)
  | [] => [[]]
  | c :: rest => (c :: rest) :: ends rest

/-- What a piece leaves of texts that are ends of one text, the longest first. Any text taken from the longest
leaves whatever it leaves of the others. -/
def Piece.leave (texts : List (List Char)) : Piece → List (List Char)
  | .anyText => (texts.head?.map ends).getD []
  | piece => texts.filterMap fun
    | [] => none
    | c :: rest => if piece.accepts c then some rest else none

def covers (pieces : List Piece) (text : List Char) : Bool :=
  (pieces.foldl Piece.leave [text]).any (·.isEmpty)

def componentMatches (pattern component : String) : Bool :=
  covers (pieces pattern.toList) component.toList

def lastMatch (patterns components : List String) : Bool :=
  (patterns.reverse.zip components.reverse).all fun (pattern, c) => componentMatches pattern c

end Glob

/-- Whether a path matches a pattern: the last components of the path against all of the pattern, or all
against all when the pattern has a root. A pattern without components is refused. -/
def Path.matches? (p : Path) (pattern : String) : Option Bool :=
  let glob := Path.ofText pattern
  if glob.components.isEmpty then none
  else if glob.root ≠ .none then
    some (glob.root = p.root && glob.parts.length == p.parts.length
      && Glob.lastMatch glob.parts p.parts)
  else
    some (glob.parts.length ≤ p.components.length && Glob.lastMatch glob.parts p.components)

example : (Path.ofText "web/app.min.js").matches? "*.min.js" = some true ∧
    (Path.ofText "x/a.py").matches? "[!a-c]*" = some false ∧
    (Path.ofText "a").matches? "[b-a]" = some false ∧
    (Path.ofText "a").matches? "./" = none := by
  decide +kernel

end ScopeComplexity
