import ScopeComplexity.Json.Document
import ScopeComplexity.Scope.Tree

namespace ScopeComplexity

open Json (Document)

variable {α : Type} [Measure α]

def Summary.record (s : Summary α) : Except NoMean (Document α) := do
  let average ← s.average
  return .object [("sum", .amount s.sum), ("average", .amount average),
    ("min", .amount s.least), ("max", .amount s.greatest)]

namespace Scope

def nameDocument : Option String → Document α
  | none => .null
  | some name => .text name

mutual

def record : Scope α → Except NoMean (Document α)
  | ⟨name, kind, startLine, endLine, cyclomatic, metrics, scopes⟩ => do
    let metrics ← metrics.record
    let nested ← recordAll scopes
    return .object [("name", nameDocument name), ("kind", .text kind.text),
      ("start_line", .count startLine), ("end_line", .count endLine),
      ("cyclomatic", .amount cyclomatic), ("metrics", .object [("cyclomatic", metrics)]),
      ("spaces", .list nested)]

def recordAll : List (Scope α) → Except NoMean (List (Document α))
  | [] => .ok []
  | s :: scopes => do
    let first ← record s
    let others ← recordAll scopes
    return first :: others

end

end Scope

end ScopeComplexity
