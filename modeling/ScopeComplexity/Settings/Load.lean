import ScopeComplexity.Host
import ScopeComplexity.Settings
import ScopeComplexity.Text.Utf8
import ScopeComplexity.Toml.Document

/-!
Settings from layers. The file in the home directory comes first, then the one in the working directory, one
named explicitly, the environment, and what the caller overrides; a later layer wins.
-/

namespace ScopeComplexity.Settings

inductive Unusable where
  | notText
  | notToml (cause : Toml.Refusal)
  | unreadable (obstacle : Obstacle)

/-- The kind of the reader's exception. The message of the exception is left out. -/
def Unusable.text : Unusable → String
  | .notText => "<UnicodeDecodeError>"
  | .notToml .malformed => "<TOMLDecodeError>"
  | .notToml .numberTooLong => "<ValueError>"
  | .notToml .nestedTooDeep => "<RecursionError>"
  | .unreadable .missing => "<FileNotFoundError>"
  | .unreadable .notDirectory => "<NotADirectoryError>"
  | .unreadable .isDirectory => "<IsADirectoryError>"
  | .unreadable .tooManyLinks => "<OSError>"
  | .unreadable .nameTooLong => "<OSError>"
  | .unreadable .forbidden => "<PermissionError>"

def readTable (host : Host) (p : Path) : Except Unusable Toml.Entries := do
  let bytes ← (host.read p).mapError .unreadable
  match Text.decode? bytes with
  | none => throw .notText
  | some text => (Toml.read text).mapError .notToml

def tableName : String := "cyclospace"

/-- The settings stand in a table of their own, or at the top level if there is no such key. -/
def section? (entries : Toml.Entries) : Option Toml.Entries :=
  match Toml.Entries.get? entries tableName with
  | none => some entries
  | some (.table inner) => some inner
  | some _ => none

def layerOf (entries : Toml.Entries) : Keyed Value :=
  entries.filterMap fun entry =>
    match entry.1 with
    | .text name => some (name, entry.2)
    | _ => none

def unusable (title : String) (p : Path) (reason : String) : Fault :=
  .general ("Invalid " ++ title ++ " '" ++ p.shown ++ "': " ++ reason)

def fileLayer (host : Host) (title : String) (p : Path) : Except Fault (Keyed Value) :=
  match readTable host p with
  | .error e => .error (unusable title p e.text)
  | .ok entries =>
    match section? entries with
    | none => .error (unusable title p ("[" ++ tableName ++ "] must be a table"))
    | some inner => .ok (layerOf inner)

def layerOrElse (host : Host) (title : String) (p : Path) (otherwise : Except Fault (Keyed Value)) :
    Except Failure (Keyed Value) :=
  match host.exists? p with
  | .error obstacle => .error (Defect.unopened obstacle p.shown)
  | .ok found => (if found then fileLayer host title p else otherwise).mapError .fault

def optionalLayer (host : Host) (title : String) (p : Path) : Except Failure (Keyed Value) :=
  layerOrElse host title p (.ok [])

def explicitLayer (host : Host) : Option Path → Except Failure (Keyed Value)
  | none => .ok []
  | some p =>
    layerOrElse host "config file" p (.error (.general ("Config file not found: " ++ p.shown)))

def variableEntry (host : Host) (setting : Setting) : Except Fault (Option (String × Value)) :=
  match host.environment.get? setting.variableName with
  | none => .ok none
  | some text =>
    match setting.hint.read setting.key text with
    | .ok found => .ok (found.map fun v => (setting.key, v))
    | .error e => .error (.general ("Invalid " ++ setting.variableName ++ ": " ++ e.message))

def environmentLayer (host : Host) : Except Fault (Keyed Value) := do
  let entries ← Setting.all.mapM (variableEntry host)
  return entries.filterMap id

def applySwitch (switch word : String) (overrides : Keyed Value) : Keyed Value :=
  match overrides.get? switch with
  | none => overrides
  | some v =>
    let rest := overrides.erase switch
    if v.isTrue then rest.put Setting.verbosity.key (.text word) else rest

/-- Overrides without a value override nothing. Of both switches the quiet one wins. -/
def overrideLayer (overrides : Keyed Value) : Keyed Value :=
  (applySwitch "quiet" "quiet" (applySwitch "verbose" "verbose" overrides)).filter
    fun entry => !isNull entry.2

def fileIn (directory : Except Defect Path) (name : String) : Except Failure Path :=
  (directory.map (·.child name)).mapError .defect

theorem fileIn_eq_ok_iff {directory : Except Defect Path} {name : String} {p : Path} :
    fileIn directory name = .ok p ↔ ∃ d, directory = .ok d ∧ p = d.child name := by
  cases directory with
  | ok d =>
    change Except.ok (d.child name) = .ok p ↔ _
    simp [eq_comm]
  | error d =>
    change Except.error (Failure.defect d) = .ok p ↔ _
    simp

theorem fileIn_eq_error_iff {directory : Except Defect Path} {name : String} {e : Failure} :
    fileIn directory name = .error e ↔ ∃ d, directory = .error d ∧ e = .defect d := by
  cases directory with
  | ok p =>
    change Except.ok (p.child name) = .error e ↔ _
    simp
  | error d =>
    change Except.error (Failure.defect d) = .error e ↔ _
    simp [eq_comm]

def homeFile (host : Host) : Except Failure Path := fileIn host.homeDirectory ".cyclospace.toml"

def projectFile (host : Host) : Except Failure Path := fileIn host.workingDirectory "cyclospace.toml"

theorem homeFile_eq_ok_iff {host : Host} {p : Path} : homeFile host = .ok p ↔
    ∃ directory, host.homeDirectory = .ok directory ∧ p = directory.child ".cyclospace.toml" :=
  fileIn_eq_ok_iff

theorem projectFile_eq_ok_iff {host : Host} {p : Path} : projectFile host = .ok p ↔
    ∃ directory, host.workingDirectory = .ok directory ∧ p = directory.child "cyclospace.toml" :=
  fileIn_eq_ok_iff

def layers (host : Host) (explicit : Option Path) (overrides : Keyed Value) :
    Except Failure (List (Keyed Value)) := do
  let homeLayer ← optionalLayer host "global config" (← homeFile host)
  let projectLayer ← optionalLayer host "project config" (← projectFile host)
  let explicit ← explicitLayer host explicit
  let environment ← (environmentLayer host).mapError .fault
  return [homeLayer, projectLayer, explicit, environment, overrideLayer overrides]

def merge (layers : List (Keyed Value)) : Keyed Value := layers.foldl Keyed.update []

def asFault : Failure → Failure
  | .fault f => f
  | .defect d =>
    if d.isOfType then Fault.general ("Invalid configuration: " ++ d.message) else d

def explicitKey : String := "config_file"

def load (host : Host) (explicit : Option Path) (overrides : Keyed Value) :
    Except Failure Settings := do
  if (overrides.get? explicitKey).isSome then throw (.defect (.takenOverride explicitKey))
  let layers ← layers host explicit overrides
  (ofLayer (merge layers)).mapError asFault

end ScopeComplexity.Settings
