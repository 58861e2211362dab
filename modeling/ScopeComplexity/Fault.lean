import ScopeComplexity.FileTree.Obstacle
import ScopeComplexity.Keyed
import ScopeComplexity.Path.Glob
import ScopeComplexity.Statistics.Tally
import ScopeComplexity.Value

/-!
What can go wrong. A fault is the library's own: it has a message and details, and belongs to a family. A
defect is of the values that it was given, and has a message only.
-/

namespace ScopeComplexity

inductive Location where
  | text (value : String)
  | path (value : Path)

def Location.shown : Location → String
  | .text value => value
  | .path value => value.shown

inductive Fault.Family where
  | general
  | analysis
  | configuration
  deriving DecidableEq

inductive Fault where
  | plain (family : Fault.Family) (message : String) (details : Keyed String)
  | fileAccess (place : Location) (reason : String)
  | parsing (place : Location) (language reason : String)
  | unsupportedLanguage (language : String) (supported : List String)
  | scopeState (reason : String)
  | invalidPath (place : Location) (reason : String)
  | invalidSetting (key : String) (value : Value) (reason : String)

namespace Fault

def general (message : String) : Fault := .plain .general message []

def ofState (e : StateError) : Fault := .scopeState e.reason

def family : Fault → Family
  | .plain family .. => family
  | .fileAccess .. => .analysis
  | .parsing .. => .analysis
  | .unsupportedLanguage .. => .analysis
  | .scopeState .. => .analysis
  | .invalidPath .. => .configuration
  | .invalidSetting .. => .configuration

def message : Fault → String
  | .plain _ message _ => message
  | .fileAccess place _ => "Cannot access file: " ++ place.shown
  | .parsing place language _ => "Failed to parse " ++ language ++ " file: " ++ place.shown
  | .unsupportedLanguage language _ => "Unsupported language: " ++ language
  | .scopeState reason => "Invalid space state: " ++ reason
  | .invalidPath place _ => "Invalid path: " ++ place.shown
  | .invalidSetting key value _ => "Invalid configuration for " ++ key ++ ": " ++ value.shown

def details : Fault → Keyed String
  | .plain _ _ details => details
  | .fileAccess place reason => [("filepath", place.shown), ("reason", reason)]
  | .parsing place language reason =>
    [("filepath", place.shown), ("language", language), ("reason", reason)]
  | .unsupportedLanguage language supported =>
    [("language", language), ("supported", ", ".intercalate supported)]
  | .scopeState reason => [("reason", reason)]
  | .invalidPath place reason => [("path", place.shown), ("reason", reason)]
  | .invalidSetting key value reason =>
    [("key", key), ("value", value.shown), ("reason", reason)]

def shown (f : Fault) : String :=
  if f.details.isEmpty then f.message
  else
    f.message ++ " (" ++ ", ".intercalate (f.details.map fun (key, text) => key ++ "=" ++ text)
      ++ ")"

end Fault

inductive Defect where
  | misuse (cause : Value.Misuse)
  | noMean (cause : NoMean)
  | noWholePart (cause : Decimal.NoWholePart)
  | emptyPattern
  | unknownSetting (name : String)
  | takenSetting (name : String)
  | takenOverride (name : String)
  | nullCharacter
  | noText
  | noWorkers
  | unopened (obstacle : Obstacle) (path : String)
  | noHome
  | workLost (obstacle : Obstacle)
  /-- Not an exception: the call waits for files that no worker takes, and never returns. -/
  | stalled
  deriving DecidableEq

namespace Defect

def message : Defect → String
  | .misuse cause => cause.message
  | .noMean cause => cause.message
  | .noWholePart .notANumber => "cannot convert float NaN to integer"
  | .noWholePart .infinite => "cannot convert float infinity to integer"
  | .emptyPattern => "empty pattern"
  | .unknownSetting name =>
    "AnalysisConfig.__init__() got an unexpected keyword argument '" ++ name ++ "'"
  | .takenSetting name =>
    "AnalysisConfig.__init__() got multiple values for argument '" ++ name ++ "'"
  | .takenOverride name => "load_config() got multiple values for argument '" ++ name ++ "'"
  | .nullCharacter => "embedded null byte"
  | .noText =>
    "Exceeds the limit (" ++ toString Decimal.mostDigits
      ++ " digits) for integer string conversion; use sys.set_int_max_str_digits() to increase the limit"
  | .noWorkers => "max_workers must be greater than 0"
  | .unopened obstacle path => obstacle.message path
  | .noHome => "Could not determine home directory."
  | .workLost obstacle => obstacle.shown
  | .stalled => ""

def isOfType : Defect → Bool
  | .misuse cause => cause.isOfType
  | .unknownSetting _ | .takenSetting _ | .takenOverride _ => true
  | _ => false

end Defect

inductive Failure where
  | fault (fault : Fault)
  | defect (defect : Defect)

def Failure.message : Failure → String
  | .fault f => f.shown
  | .defect d => d.message

instance : Coe Fault Failure := ⟨.fault⟩

instance : Coe Defect Failure := ⟨.defect⟩

end ScopeComplexity
