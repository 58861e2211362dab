import ScopeComplexity.Fault
import ScopeComplexity.FileTree
import ScopeComplexity.Keyed

namespace ScopeComplexity

/-- The surroundings of a run. It is assumed that nothing changes them while it lasts, and that every directory may be
listed and passed through. -/
structure Host where
  files : FileTree
  /-- Whether the file at a position may be read. Its size is known in any case. -/
  readable : List String → Bool := fun _ => true
  home : Path
  /-- Whether the account has no home directory after all. -/
  homeless : Bool := false
  work : Path
  /-- Why the system does not say which directory `work` is, if it does not. -/
  workLost : Option Obstacle := none
  environment : Keyed String := []
  processors : Option Int := some 4

namespace Host

def homeVariable : String := "HOME"

/-- The home directory that a text names. One that begins with a tilde is not resolved. -/
def homeOf (text : String) : Except Defect Path :=
  if text.startsWith "~" then .error .noHome
  else .ok (Path.ofText (if text.all (· == '/') then "/" else text))

/-- The environment goes before the account. -/
def homeDirectory (host : Host) : Except Defect Path :=
  match host.environment.get? homeVariable with
  | some text => homeOf text
  | none => if host.homeless then .error .noHome else .ok host.home

def workingDirectory (host : Host) : Except Defect Path :=
  host.workLost.elim (.ok host.work) fun obstacle => .error (.workLost obstacle)

def locate (host : Host) (p : Path) : Except Obstacle FileTree.Position :=
  host.files.locate host.work.parts true p

def entry (host : Host) (p : Path) : Except Obstacle FileTree :=
  host.files.entry host.work.parts true p

def exists? (host : Host) (p : Path) : Except Obstacle Bool :=
  if p.hasNull then .ok false
  else
    match host.entry p with
    | .ok _ => .ok true
    | .error obstacle => if obstacle.isAbsence then .ok false else .error obstacle

def isLink (host : Host) (p : Path) : Except Obstacle Bool :=
  match host.files.entry host.work.parts false p with
  | .ok t => .ok t.isLink
  | .error obstacle => if obstacle.isAbsence then .ok false else .error obstacle

def read (host : Host) (p : Path) : Except Obstacle ByteArray := do
  let position ← host.locate p
  let content ← host.files.read host.work.parts p
  if host.readable position.names then return content else throw .forbidden

end Host

end ScopeComplexity
