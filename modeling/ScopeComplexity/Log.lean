namespace ScopeComplexity

inductive Severity where
  | debug
  | info
  | warning
  | error
  | critical
  deriving DecidableEq

namespace Severity

def all : List Severity := [debug, info, warning, error, critical]

def level : Severity → Int
  | .debug => 10
  | .info => 20
  | .warning => 30
  | .error => 40
  | .critical => 50

def text : Severity → String
  | .debug => "DEBUG"
  | .info => "INFO"
  | .warning => "WARNING"
  | .error => "ERROR"
  | .critical => "CRITICAL"

end Severity

namespace Log

def rootName : String := "cyclospace"

def loggerName : Option String → String
  | none => rootName
  | some name => if name.startsWith rootName then name else rootName ++ "." ++ name

def levelText (level : Int) : String :=
  match Severity.all.find? (·.level == level) with
  | some severity => severity.text
  | none => if level == 0 then "NOTSET" else "Level " ++ toString level

structure Record where
  level : Int
  logger : String
  message : String
  deriving DecidableEq

def Record.of (severity : Severity) (part message : String) : Record :=
  ⟨severity.level, loggerName (some part), message⟩

def Record.line (time : String) (r : Record) : String :=
  time ++ " - " ++ r.logger ++ " - " ++ levelText r.level ++ " - " ++ r.message ++ "\n"

/-- From which level on records are let through. Silence wins over detail. -/
def threshold (verbose quiet : Bool) : Severity :=
  if quiet then .error else if verbose then .debug else .warning

def enabled (threshold level : Int) : Bool := threshold ≤ level

def written (threshold : Int) (time : String) (records : List Record) : String :=
  String.join ((records.filter fun r => enabled threshold r.level).map (Record.line time))

end Log

end ScopeComplexity
