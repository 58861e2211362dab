import ScopeComplexity.Toml.Reader

namespace ScopeComplexity.Toml.Reader

def hexValue? (c : Char) : Option Nat :=
  if c.isDigit then some (c.toNat - '0'.toNat)
  else if 'a' ≤ c && c ≤ 'f' then some (c.toNat - 'a'.toNat + 10)
  else if 'A' ≤ c && c ≤ 'F' then some (c.toNat - 'A'.toNat + 10)
  else none

def codePoint (digits : Nat) : Reader (List Char) := do
  let text ← get
  let values := (text.take digits).filterMap hexValue?
  if values.length < digits then refuse
  else
    let n := values.foldl (fun n d => 16 * n + d) 0
    if n.isValidChar then
      set (text.drop digits)
      return [Char.ofNat n]
    else refuse

/-- What a backslash and the characters after it stand for. At the end of a line of a text over several
lines they stand for nothing, together with all blanks and line breaks that follow. -/
def escape (multiline : Bool) : Reader (List Char) := do
  match ← next with
  | some 'b' => return ['\x08']
  | some 't' => return ['\t']
  | some 'n' => return ['\n']
  | some 'f' => return ['\x0c']
  | some 'r' => return ['\r']
  | some '"' => return ['"']
  | some '\\' => return ['\\']
  | some 'u' => codePoint 4
  | some 'U' => codePoint 8
  | some c =>
    if multiline && isBlankOrBreak c then
      if c != '\n' then
        skipBlanks
        match ← next with
        | none | some '\n' => pure ()
        | some _ => refuse
      skipWhile isBlankOrBreak
      return []
    else refuse
  | none => refuse

def isIllegal (multiline : Bool) (c : Char) : Bool := isControl c && !(multiline && c == '\n')

def isPlain (multiline : Bool) (c : Char) : Bool :=
  c != '"' && c != '\\' && !isIllegal multiline c

def escapedBody (multiline : Bool) : Nat → String → Reader String
  | 0, _ => refuse
  | rounds + 1, done => do
    let done := (← takeWhile (isPlain multiline)).foldl String.push done
    match ← next with
    | some '"' =>
      if !multiline then return done
      else if ← accept "\"\"" then return done
      else escapedBody multiline rounds (done.push '"')
    | some '\\' =>
      let escaped ← escape multiline
      escapedBody multiline rounds (escaped.foldl String.push done)
    | _ => refuse

def plainLines : List Char → Option (List Char × List Char)
  | [] => none
  | '\'' :: '\'' :: '\'' :: rest => some ([], rest)
  | c :: rest => (plainLines rest).map fun (body, rest) => (c :: body, rest)

/-- Up to two more quotes behind the closing ones belong to the text. -/
def moreQuotes (quote : String) : Reader (List Char) := do
  if ← accept quote then
    if ← accept quote then return quote.toList ++ quote.toList else return quote.toList
  else return []

def plainText : Reader String := do
  expect "'"
  let body ← takeWhile (· != '\'')
  if body.any isControl then refuse
  expect "'"
  return String.ofList body

def escapedText : Reader String := do
  expect "\""
  escapedBody false (← rounds) ""

def plainTextLines : Reader String := do
  expect "'''"
  let _ ← accept "\n"
  match plainLines (← get) with
  | none => refuse
  | some (body, rest) =>
    if body.any (isIllegal true) then refuse
    set rest
    return String.ofList (body ++ (← moreQuotes "'"))

def escapedTextLines : Reader String := do
  expect "\"\"\""
  let _ ← accept "\n"
  let body ← escapedBody true (← rounds) ""
  return body ++ String.ofList (← moreQuotes "\"")

end ScopeComplexity.Toml.Reader
