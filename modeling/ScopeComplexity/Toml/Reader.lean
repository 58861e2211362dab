namespace ScopeComplexity.Toml

inductive Refusal where
  | malformed
  | numberTooLong
  | nestedTooDeep
  deriving DecidableEq

abbrev Reader := ReaderT Nat (StateT (List Char) (Except Refusal))

namespace Reader

def rounds : Reader Nat := return (← read) + 4

def refuse {α : Type} : Reader α := throw .malformed

def peek : Reader (Option Char) := return (← get).head?

def next : Reader (Option Char) := do
  match ← get with
  | [] => return none
  | c :: rest =>
    set rest
    return some c

def accept (word : String) : Reader Bool := do
  let text ← get
  if word.toList.isPrefixOf text then
    set (text.drop word.length)
    return true
  else return false

def expect (word : String) : Reader Unit := do
  if ← accept word then return () else refuse

def takeWhile (p : Char → Bool) : Reader (List Char) := do
  let text ← get
  set (text.dropWhile p)
  return text.takeWhile p

def skipWhile (p : Char → Bool) : Reader Unit := modify (·.dropWhile p)

def isBlank (c : Char) : Bool := c == ' ' || c == '\t'

def isBlankOrBreak (c : Char) : Bool := isBlank c || c == '\n'

def isControl (c : Char) : Bool := (c.toNat < 0x20 && c != '\t') || c.toNat == 0x7f

def skipBlanks : Reader Unit := skipWhile isBlank

def skipComment : Reader Unit := do
  if (← peek) == some '#' then
    if (← takeWhile (· != '\n')).any isControl then refuse

/-- Skips blanks, line breaks and comments. One comment at least goes with each round. -/
def skipFiller : Nat → Reader Unit
  | 0 => return ()
  | rounds + 1 => do
    skipWhile isBlankOrBreak
    if (← peek) == some '#' then
      skipComment
      skipFiller rounds

end Reader

end ScopeComplexity.Toml
