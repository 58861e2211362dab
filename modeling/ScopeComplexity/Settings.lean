import ScopeComplexity.Fault
import ScopeComplexity.Settings.Hint

namespace ScopeComplexity

inductive Setting where
  | workers
  | excludePatterns
  | maxFileSize
  | maxFiles
  | languages
  | allowHiddenFiles
  | followLinks
  | strictParsing
  | verbosity
  deriving DecidableEq

namespace Setting

def all : List Setting :=
  [workers, excludePatterns, maxFileSize, maxFiles, languages, allowHiddenFiles, followLinks,
    strictParsing, verbosity]

def key : Setting → String
  | .workers => "workers"
  | .excludePatterns => "exclude_patterns"
  | .maxFileSize => "max_file_size_mb"
  | .maxFiles => "max_files"
  | .languages => "languages"
  | .allowHiddenFiles => "allow_hidden_files"
  | .followLinks => "follow_symlinks"
  | .strictParsing => "strict_parsing"
  | .verbosity => "verbosity"

def hint : Setting → Hint
  | .workers => .optional .whole
  | .excludePatterns => .list
  | .maxFileSize => .double
  | .maxFiles => .whole
  | .languages => .optional .list
  | .allowHiddenFiles => .flag
  | .followLinks => .flag
  | .strictParsing => .flag
  | .verbosity => .choice

def standard : Setting → Value
  | .workers => .null
  | .excludePatterns =>
    .list [.text "*.min.js", .text "*.bundle.js", .text "*.generated.*", .text "*_pb2.py"]
  | .maxFileSize => .double 10.0
  | .maxFiles => .whole 10000
  | .languages => .null
  | .allowHiddenFiles => .flag false
  | .followLinks => .flag false
  | .strictParsing => .flag false
  | .verbosity => .text "normal"

def ofKey? (key : String) : Option Setting := all.find? (·.key == key)

def variableName (s : Setting) : String := "CYCLOSPACE_" ++ s.key.map Char.toUpper

end Setting

structure Settings where
  value : Setting → Value

namespace Settings

def standard : Settings := ⟨Setting.standard⟩

def verbosities : List String := ["quiet", "normal", "verbose"]

def ownKey : String := "self"

def checkKey (key : String) : Except Defect Unit :=
  if (Setting.ofKey? key).isSome then .ok ()
  else if key == ownKey then .error (.takenSetting key)
  else .error (.unknownSetting key)

def checkKeys (layer : Keyed Value) : Except Defect Unit := layer.keys.forM checkKey

def refuse {α : Type} (s : Settings) (setting : Setting) (reason : String) : Except Failure α :=
  if (s.value setting).hasText then
    .error (Fault.invalidSetting setting.key (s.value setting) reason)
  else .error Defect.noText

def isNull : Value → Bool
  | .null => true
  | _ => false

def sound (result : Except Value.Misuse α) : Except Failure α :=
  result.mapError fun misuse => .defect (.misuse misuse)

/-- Checks the values in a fixed order. A value of a wrong type is noticed where it is compared. -/
def check (s : Settings) : Except Failure Unit := do
  if !isNull (s.value .workers) then
    if ← sound ((s.value .workers).less 1) then s.refuse .workers "must be at least 1"
  if ← sound ((s.value .maxFileSize).lessOrEqual 0) then s.refuse .maxFileSize "must be positive"
  if ← sound ((s.value .maxFiles).less 1) then s.refuse .maxFiles "must be at least 1"
  if !verbosities.any (fun word => (s.value .verbosity).isText word) then
    s.refuse .verbosity ("must be one of " ++ ", ".intercalate verbosities)
  if !isNull (s.value .languages) && !(s.value .languages).isTrue then
    s.refuse .languages "must not be empty"

def fill (layer : Keyed Value) : Settings :=
  ⟨fun setting => (layer.get? setting.key).getD setting.standard⟩

def ofLayer (layer : Keyed Value) : Except Failure Settings := do
  (checkKeys layer).mapError .defect
  let s := fill layer
  s.check
  return s

def bytesPerStep : Nat := 1024

def byteLimit (s : Settings) : Except Failure Int :=
  match (s.value .maxFileSize).number? with
  | some (.whole n) => .ok (n * bytesPerStep * bytesPerStep)
  | some (.double x) =>
    (Decimal.Binary64.ofFloat (x * 1024.0 * 1024.0)).wholePart.mapError
      fun cause => .defect (.noWholePart cause)
  | none => .error (Defect.misuse (.multiplied (s.value .maxFileSize).typeName))

def usualProcessors : Int := 4

def workerLimit : Int := 8

/-- How many workers to use; none set means one for each processor, within a limit. -/
def effectiveWorkers (s : Settings) (processors : Option Int) : Value :=
  match s.value .workers with
  | .null =>
    let known := (processors.filter (· != 0)).getD usualProcessors
    .whole (min known workerLimit)
  | workers => workers

end Settings

end ScopeComplexity
