import ScopeComplexity.FileTree.Walk
import ScopeComplexity.Host
import ScopeComplexity.Journal
import ScopeComplexity.Rules.Detection
import ScopeComplexity.Settings

/-!
The sources to analyze: files named one by one, and those found below directories. Either kind is taken only
if its language is known and wanted, no pattern excludes it, and it is neither a link nor too large.
-/

namespace ScopeComplexity.Sources

def skippedDirectories : List String :=
  ["vendor", "node_modules", "venv", ".venv", "__pycache__", ".git", ".hg", ".tox", ".mypy_cache",
    ".pytest_cache", "dist", "build", "target", ".eggs"]

def isHidden (name : String) : Bool := name.startsWith "."

/-- A path found from the working directory is opened with two bytes before it, for a dot and a
slash. -/
def opens (start p : Path) : Bool :=
  p.size + (if start.components.isEmpty then 2 else 0) < FileTree.pathLimit

def choice (settings : Settings) (start : Path) : FileTree.Choice :=
  let hidden := (settings.value .allowHiddenFiles).isTrue
  { enters := fun name => !skippedDirectories.contains name && (hidden || !isHidden name)
    takes := fun name => hidden || !isHidden name
    throughLinks := (settings.value .followLinks).isTrue
    opens := opens start }

/-- How it fails when a value that is no text is taken for a pattern. -/
def notPattern (v : Value) : Value.Misuse :=
  match v.atZero with
  | .error misuse => misuse
  | .ok first =>
    if first.isText "/" then .lacking v.typeName "lstrip"
    else
      match v.holds "/" with
      | .ok true => .lacking v.typeName "split"
      | _ => .interned v.typeName

def matchesPattern (p : Path) : Value → Except Defect Bool
  | .text pattern =>
    match p.matches? pattern with
    | some matched => .ok matched
    | none => .error .emptyPattern
  | v => .error (if v.isTrue then .misuse (notPattern v) else .emptyPattern)

def matchesAny (p : Path) : List Value → Except Defect Bool
  | [] => .ok false
  | pattern :: patterns => do
    if ← matchesPattern p pattern then return true else matchesAny p patterns

def isExcluded (settings : Settings) (p : Path) : Except Failure Bool := do
  let patterns ← Settings.sound (settings.value .excludePatterns).items
  (matchesAny p patterns).mapError .defect

def isWanted (settings : Settings) (language : String) : Except Failure Bool :=
  match settings.value .languages with
  | .null => .ok true
  | languages => Settings.sound (languages.holds language)

def note (severity : Severity) (message : String) : Journal Failure Unit :=
  Journal.log severity "discovery" message

def hasAllowedSize (settings : Settings) (host : Host) (p : Path) : Journal Failure Bool := do
  match host.entry p with
  | .error obstacle =>
    note .warning ("Cannot stat " ++ p.shown ++ ": " ++ obstacle.message p.shown)
    return false
  | .ok (.file content) =>
    if (← Journal.ofExcept settings.byteLimit) < content.size then
      note .debug ("Skipped (size): " ++ p.shown ++ " (" ++ toString content.size ++ " bytes)")
      return false
    else return true
  | .ok _ => return true

def answered {α : Type} (p : Path) (answer : Except Obstacle α) : Journal Failure α :=
  Journal.ofExcept (answer.mapError fun obstacle => .defect (.unopened obstacle p.shown))

def isUnwantedLink (settings : Settings) (host : Host) (p : Path) : Journal Failure Bool := do
  if (settings.value .followLinks).isTrue then return false
  else answered p (host.isLink p)

def accepts (settings : Settings) (host : Host) (p : Path) : Journal Failure Bool := do
  match Language.ofPath? p with
  | none => return false
  | some language =>
    if !(← Journal.ofExcept (isWanted settings language.name)) then return false
    else if ← Journal.ofExcept (isExcluded settings p) then
      note .debug ("Skipped (pattern): " ++ p.shown)
      return false
    else if ← isUnwantedLink settings host p then
      note .debug ("Skipped (symlink): " ++ p.shown)
      return false
    else hasAllowedSize settings host p

def acceptAll (settings : Settings) (host : Host) : List Path → Journal Failure (List Path)
  | [] => return []
  | p :: paths => do
    let accepted ← accepts settings host p
    let others ← acceptAll settings host paths
    return if accepted then p :: others else others

def candidates (settings : Settings) (host : Host) (p : Path) : List Path :=
  match host.locate p with
  | .error _ => []
  | .ok position =>
    match host.files.descend position.names with
    | some (.directory entries) => host.files.walk (choice settings p) p ⟨position, entries⟩
    | _ => [p]

def findAll (settings : Settings) (host : Host) : List Path → Journal Failure (List Path)
  | [] => return []
  | p :: paths => do
    if !(← answered p (host.exists? p)) then throw (.fault (.invalidPath (.path p) "does not exist"))
    let accepted ← acceptAll settings host (candidates settings host p)
    return accepted ++ (← findAll settings host paths)

def dropRepeats : List Path → List Path
  | p :: q :: paths => if p = q then dropRepeats (q :: paths) else p :: dropRepeats (q :: paths)
  | paths => paths

def inOrder (paths : List Path) : List Path := dropRepeats (paths.mergeSort Path.le)

def limit (settings : Settings) (files : List Path) : Journal Failure (List Path) := do
  let most := settings.value .maxFiles
  if ← Journal.ofExcept (Settings.sound (most.exceededBy files.length)) then
    note .warning ("Reached max files limit (" ++ most.shown ++ ")")
    match most.number? with
    | some (.whole n) => return files.take n.toNat
    | _ => throw (.defect (.misuse .cutAt))
  else return files

def find (settings : Settings) (host : Host) (paths : List Path) : Journal Failure (List Path) := do
  let files ← findAll settings host paths
  limit settings (inOrder files)

end ScopeComplexity.Sources
