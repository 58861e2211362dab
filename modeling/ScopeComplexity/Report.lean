import ScopeComplexity.Keyed
import ScopeComplexity.Scope.Record

namespace ScopeComplexity

open Json (Document)

structure Report (α : Type) where
  files : Keyed (Scope α) := []
  errors : Keyed String := []

namespace Report

variable {α : Type} [Measure α]

def addFile (r : Report α) (path : String) (scope : Scope α) : Report α :=
  { r with files := r.files.put path scope }

def addError (r : Report α) (path reason : String) : Report α :=
  { r with errors := r.errors.put path reason }

def summary (r : Report α) : Option (Summary α) :=
  Summary.combine (r.files.sorted.map fun file => file.2.metrics)

def recordFile (withScopes : Bool) (scope : Scope α) : Except NoMean (Document α) :=
  if withScopes then scope.record else scope.metrics.record

def recordFiles (withScopes : Bool) :
    Keyed (Scope α) → Except NoMean (List (String × Document α))
  | [] => .ok []
  | (path, scope) :: files => do
    let document ← recordFile withScopes scope
    let others ← recordFiles withScopes files
    return (path, document) :: others

def recordSummary : Option (Summary α) → Except NoMean (Document α)
  | none => .ok .null
  | some summary => summary.record

/-- Files and errors stand in the order of their paths. Of several missing means that of a file is met
before that of the whole. -/
def record (r : Report α) (withScopes : Bool) : Except NoMean (Document α) := do
  let files ← recordFiles withScopes r.files.sorted
  let summary ← recordSummary r.summary
  return .object [("summary", summary), ("files", .object files),
    ("errors", .object (r.errors.sorted.map fun (path, reason) => (path, .text reason)))]

end Report

end ScopeComplexity
