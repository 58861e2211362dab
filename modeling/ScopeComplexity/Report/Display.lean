import ScopeComplexity.Report
import ScopeComplexity.Scope.View

namespace ScopeComplexity

inductive Justify where
  | left
  | right
  deriving DecidableEq

structure Column where
  header : String
  justify : Justify := .left

structure Table where
  title : String
  columns : List Column
  rows : List (List String)
  ruledRows : List Nat := []

inductive Shown where
  | blank
  | line (text : String)
  | table (table : Table)
  | tree (view : View)

def Summary.cells (s : Summary Float) : Except NoMean (List String) := do
  let average ← s.average
  return [s.sum, average, s.least, s.greatest].map Decimal.brief

namespace Report

def rowOf (title : String) (s : Summary Float) : Except NoMean (List String) := do
  let cells ← s.cells
  return title :: toString s.count :: cells

def fileRows : Keyed (Scope Float) → Except NoMean (List (List String))
  | [] => .ok []
  | (path, scope) :: files => do
    let row ← rowOf path scope.metrics
    let others ← fileRows files
    return row :: others

def totalRows (r : Report Float) : Except NoMean (List (List String)) :=
  match r.summary with
  | none => .ok []
  | some summary =>
    if r.files.length ≤ 1 then .ok []
    else do
      let row ← rowOf "[bold]total[/bold]" summary
      return [row]

def columns : List Column :=
  ⟨"File", .left⟩ :: ["Spaces", "Sum", "Average", "Min", "Max"].map (⟨·, .right⟩)

def table (r : Report Float) : Except NoMean Table := do
  let rows ← fileRows r.files.sorted
  let total ← r.totalRows
  return {
    title := "Cyclomatic complexity"
    columns
    rows := rows ++ total
    ruledRows := if total.isEmpty then [] else [rows.length - 1] }

def shownErrors (r : Report Float) : List Shown :=
  if r.errors.isEmpty then []
  else
    .blank
      :: .line ("[yellow]" ++ toString r.errors.length ++ " file(s) could not be analyzed:[/yellow]")
      :: r.errors.sorted.map fun (path, reason) => .line ("  [dim]" ++ path ++ "[/dim]: " ++ reason)

def shown (r : Report Float) (withScopes : Bool) : Except NoMean (List Shown) := do
  let table ← r.table
  let trees :=
    if withScopes then r.files.sorted.flatMap fun file => [.blank, .tree file.2.view] else []
  return .table table :: trees ++ r.shownErrors

end Report

end ScopeComplexity
