import ScopeComplexity.Command.Line
import ScopeComplexity.Log.Setup

namespace ScopeComplexity.Program

partial def picture (place : String) : IO FileTree := do
  let path ← IO.FS.realPath place
  if ← path.isDir then
    let entries ← path.readDir
    let inner ← entries.toList.mapM fun entry => return (entry.fileName, ← picture entry.path.toString)
    return .directory inner
  else return .file (← IO.FS.readBinFile place)

def addPicture (host : Host) (p : Path) : IO Host := do
  let place := Log.absolute host p
  try
    let entry ← picture place.shown
    return { host with files := host.files.insert place.parts entry }
  catch _ => return host

def readEnvironment : IO (Keyed String) := do
  let found ← (Host.homeVariable :: Setting.all.map Setting.variableName).mapM fun name => do
    let value ← IO.getEnv name
    return value.map fun value => (name, value)
  return found.filterMap id

def hostFor (paths : List Path) : IO Host := do
  let work ← IO.FS.realPath "."
  let host : Host :=
    { files := .directory [], home := .ofText "/", homeless := true
      work := Path.ofText work.toString
      environment := ← readEnvironment, processors := none }
  let ownFiles := [Settings.homeFile host, Settings.projectFile host].filterMap Except.toOption
  (paths ++ ownFiles).foldlM addPicture host

def noGrammars : FrontEnd := ⟨[], fun _ _ => ⟨.node (Syntax.Label.mk "" true 0 0 none []) [], false⟩⟩

def answer : Command.Request → IO (Except Failure Command.Outcome)
  | .languages => return .ok (Command.languages noGrammars)
  | .analyze options => do
    let host ← hostFor (options.paths ++ options.config.toList)
    return Command.analyze .inOrder noGrammars host options

end ScopeComplexity.Program

open ScopeComplexity in
def main (words : List String) : IO UInt32 := do
  match Command.Request.read words with
  | .error unclear =>
    IO.eprintln unclear.message
    return 2
  | .ok request =>
    match ← Program.answer request with
    | .error e =>
      IO.eprintln e.message
      return 1
    | .ok outcome =>
      IO.print (Command.text outcome)
      return outcome.exit.toUInt32
