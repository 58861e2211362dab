import ScopeComplexity.Fault
import ScopeComplexity.Host
import ScopeComplexity.Log

namespace ScopeComplexity.Log

inductive Destination where
  | terminal
  | file (path : Path)

structure Setup where
  threshold : Severity
  destinations : List Destination

def flatten (parts : List String) : List String :=
  (parts.foldl (fun kept part => if part == ".." then kept.drop 1 else part :: kept) []).reverse

def absolute (host : Host) (p : Path) : Path :=
  if p.root = .none then ⟨host.work.root, flatten (host.work.parts ++ p.parts)⟩
  else ⟨p.root, flatten p.parts⟩

def obstacleAt (host : Host) (p : Path) : Option Obstacle :=
  match host.entry p with
  | .ok (.directory _) => some .isDirectory
  | .ok _ => none
  | .error .missing =>
    match host.entry { p with parts := p.parts.dropLast } with
    | .ok (.directory _) => none
    | .ok _ => some .notDirectory
    | .error obstacle => some obstacle
  | .error obstacle => some obstacle

/-- A log file with an empty name is no log file. -/
def setup (host : Host) (verbose quiet : Bool) (file : Option String) : Except Defect Setup :=
  let threshold := Log.threshold verbose quiet
  match file.filter (· != "") with
  | none => .ok ⟨threshold, [.terminal]⟩
  | some name => do
    let p := Path.ofText name
    if p.root = .none then let _ ← host.workingDirectory
    let path := absolute host p
    if path.hasNull then throw .nullCharacter
    match obstacleAt host path with
    | some obstacle => throw (.unopened obstacle path.shown)
    | none => return ⟨threshold, [.terminal, .file path]⟩

end ScopeComplexity.Log
