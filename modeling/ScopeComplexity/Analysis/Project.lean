import ScopeComplexity.Analysis.Source
import ScopeComplexity.Report
import ScopeComplexity.Settings.Load
import ScopeComplexity.Sources

namespace ScopeComplexity

/-- The order in which workers finish their files. -/
structure Schedule where
  arrange : List Path → List Path
  perm : ∀ files, (arrange files).Perm files

def Schedule.inOrder : Schedule := ⟨id, fun _ => .refl _⟩

namespace Analysis

def parallelThreshold : Nat := 10

def inParallel (settings : Settings) (host : Host) (files : List Path) : Bool :=
  !((settings.effectiveWorkers host.processors).equals 1 || files.length < parallelThreshold)

/-- Several workers are at least one, however many processors there are said to be. A double that is
no number is not refused, but no worker starts, so that the files wait for ever. -/
def checkWorkers (settings : Settings) (host : Host) : Except Failure Unit := do
  let workers := settings.effectiveWorkers host.processors
  if ← Settings.sound (workers.lessOrEqual 0) then throw (.defect .noWorkers)
  if !(← Settings.sound (workers.more 0)) then throw (.defect .stalled)

def note (severity : Severity) (message : String) : Journal Failure Unit :=
  Journal.log severity "analyzer" message

def collect (report : Report Float) (p : Path) (outcome : Except Failure (Scope Float)) :
    Journal Failure (Report Float) :=
  match outcome with
  | .ok scope => return report.addFile p.shown scope
  | .error (.fault f) =>
    if f.family = .analysis then do
      note .warning ("Skipping " ++ p.shown ++ ": " ++ f.shown)
      return report.addError p.shown f.shown
    else throw (.fault f)
  | .error failure => throw failure

def gather (analyze : Path → Journal Failure (Scope Float)) (report : Report Float) :
    List Path → Journal Failure (Report Float)
  | [] => return report
  | p :: files => do
    let outcome ← (analyze p).attempt
    let report ← collect report p outcome
    gather analyze report files

def closing (report : Report Float) (files : List Path) : String :=
  "Analyzed " ++ toString report.files.length ++ " of " ++ toString files.length ++ " files"
    ++ (if report.errors.isEmpty then ""
      else ", " ++ toString report.errors.length ++ " failed")

def paths (schedule : Schedule) (settings : Settings) (frontEnd : FrontEnd) (host : Host)
    (given : List Path) : Journal Failure (Report Float) := do
  let files ← Sources.find settings host given
  let order ←
    if inParallel settings host files then
      Journal.ofExcept (checkWorkers settings host)
      pure (schedule.arrange files)
    else pure files
  let report ← gather (fun p => file settings frontEnd host p none) {} order
  note .info (closing report files)
  return report

def project (schedule : Schedule) (frontEnd : FrontEnd) (host : Host) (settings : Option Settings)
    (given : List Path) : Journal Failure (Report Float) := do
  let settings ←
    match settings with
    | some settings => pure settings
    | none => Journal.ofExcept (Settings.load host none [])
  paths schedule settings frontEnd host given

end Analysis

end ScopeComplexity
