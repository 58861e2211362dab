import ScopeComplexity.Analysis.Project
import ScopeComplexity.Report.Display

namespace ScopeComplexity.Command

def version : String := "0.3.0"

structure Outcome where
  exit : Nat
  shown : List Shown := []
  written : String := ""
  threshold : Option Severity := none

structure Options where
  paths : List Path
  format : String := "rich"
  withScopes : Bool := false
  language : Option String := none
  workers : Option Value := none
  config : Option Path := none
  verbose : Bool := false
  quiet : Bool := false

def Options.settings (o : Options) (host : Host) : Except Failure Settings := do
  let languages : Keyed Value ←
    match o.language with
    | none => pure []
    | some name => do
      let _ ← Analysis.findLanguage name
      pure [(Setting.languages.key, .list [.text name])]
  let workers : Keyed Value := (o.workers.map fun v => (Setting.workers.key, v)).toList
  let overrides := [("verbose", .flag o.verbose), ("quiet", .flag o.quiet)] ++ workers ++ languages
  Settings.load host o.config overrides

def error (message : String) : Shown := .line ("[red]Error:[/red] " ++ message)

def formats : List String := ["rich", "json"]

def failureLine : Failure → Shown
  | .fault f => error f.shown
  | .defect d => .line ("[red]Unexpected error:[/red] " ++ d.message)

def present (report : Report Float) (o : Options) (threshold : Severity) :
    Except NoMean Outcome := do
  let exit := if report.files.isEmpty then 1 else 0
  if o.format == "json" then
    let document ← report.record o.withScopes
    return { exit, written := document.write Json.indented ++ "\n", threshold }
  else
    let shown ← report.shown o.withScopes
    let ending := if report.files.isEmpty then [.line "[yellow]No files analyzed[/yellow]"] else []
    return { exit, shown := shown ++ ending, threshold }

def isVerbosity (settings : Settings) (word : String) : Bool :=
  (settings.value .verbosity).isText word

/-- Analyzes the given paths. The format is looked at before anything else. Only a defect of the settings
themselves, an analysis that never returns, or a mean that is missing leaves the command without an outcome. -/
def analyze (schedule : Schedule) (frontEnd : FrontEnd) (host : Host) (o : Options) :
    Except Failure Outcome :=
  if !formats.contains o.format then
    .ok { exit := 2, shown := [error ("unknown format '" ++ o.format ++ "' (use rich or json)")] }
  else
    match o.settings host with
    | .error (.defect d) => .error d
    | .error (.fault f) => .ok { exit := 1, shown := [error f.shown] }
    | .ok settings =>
      let threshold :=
        Log.threshold (isVerbosity settings "verbose") (isVerbosity settings "quiet")
      match (Analysis.paths schedule settings frontEnd host o.paths).result with
      | .error (.defect .stalled) => .error (.defect .stalled)
      | .error failure => .ok { exit := 1, shown := [failureLine failure], threshold }
      | .ok report => (present report o threshold).mapError fun e => .defect (.noMean e)

def languageRow (frontEnd : FrontEnd) (l : Language) : List String :=
  [l.name, " ".intercalate l.extensions,
    if l.rules.classifies then "classified" else "[dim]structural only[/dim]",
    if frontEnd.has l.grammar then "[green]installed[/green]" else "[red]missing[/red]"]

def languageTable (frontEnd : FrontEnd) : Table where
  title := "Languages"
  columns := ["Language", "Extensions", "Decisions", "Grammar"].map (⟨·, .left⟩)
  rows := Language.supported.filterMap fun name =>
    (Language.ofName? name).map (languageRow frontEnd)

def languages (frontEnd : FrontEnd) : Outcome :=
  let table := Shown.table (languageTable frontEnd)
  if frontEnd.grammars.isEmpty then
    { exit := 1
      shown := [table, .line "[yellow]No grammars installed: pip install cyclospace[/yellow]"] }
  else { exit := 0, shown := [table] }

end ScopeComplexity.Command
