import ScopeComplexity.Proofs.Decimal.Overflow
import ScopeComplexity.Proofs.Keyed
import ScopeComplexity.Proofs.Scope.Traversals

namespace ScopeComplexity

open Json (Document)

theorem Keyed.pairwise_keys_sorted {β : Type} {m : Keyed β} (distinct : m.keys.Nodup) :
    m.sorted.keys.Pairwise (· < ·) := by
  have ordered : m.sorted.keys.Pairwise (· ≤ ·) := List.pairwise_map.2 m.pairwise_sorted
  have distinct : m.sorted.keys.Nodup := (m.sorted_perm.map _).nodup_iff.2 distinct
  exact (ordered.and distinct).imp fun h => lt_of_le_of_ne h.1 h.2

namespace Summary

theorem hasMean_iff {m : Summary Float} (positive : 1 ≤ m.count) :
    m.HasMean ↔ m.count < Decimal.Binary64.overflow := by
  have double := Decimal.Binary64.isSome_ofInt?_iff (n := m.count)
  rw [HasMean, average]
  simp only [Measure.mean]
  split
  next none =>
    rw [none] at double
    refine iff_of_false (by simp) ?_
    have := mt double.2 (by simp)
    omega
  next n found =>
    rw [found] at double
    have := double.1 rfl
    have nonzero : (m.count == 0) = false := beq_eq_false_iff_ne.2 (by omega)
    rw [nonzero]
    exact iff_of_true ⟨_, rfl⟩ (by omega)

def Counted (m : Summary Float) : Prop := 1 ≤ m.count ∧ m.count < Decimal.Binary64.overflow

theorem Counted.hasMean {m : Summary Float} (h : m.Counted) : m.HasMean := (hasMean_iff h.1).2 h.2

end Summary

namespace Json.Document

variable {α : Type}

def member? (key : String) : Document α → Option (Document α)
  | .object members => members.lookup key
  | _ => none

end Json.Document

namespace Report

/-- Cells of a table show the figures that a document carries. -/
def SameFigures (figures : Document Float) (cells : List String) : Prop :=
  ∃ sum average least greatest : Float,
    figures = .object [("sum", .amount sum), ("average", .amount average),
      ("min", .amount least), ("max", .amount greatest)] ∧
    cells = [sum, average, least, greatest].map Decimal.brief

structure Entry where
  path : String
  scope : Scope Float
  document : Document Float
  cells : List String

namespace Entry

def row (e : Entry) : List String := e.path :: toString e.scope.metrics.count :: e.cells

def figures? (withScopes : Bool) (e : Entry) : Option (Document Float) :=
  if withScopes then (e.document.member? "metrics").bind (·.member? "cyclomatic") else some e.document

end Entry

/-- What is told of a report, as a document and as a table with what follows it. -/
structure Account where
  files : List Entry
  whole : Document Float
  total : Option (List String)
  errors : List (String × String)

namespace Account

def document (a : Account) : Document Float :=
  .object [("summary", a.whole), ("files", .object (a.files.map fun e => (e.path, e.document))),
    ("errors", .object (a.errors.map fun (path, reason) => (path, .text reason)))]

def count (a : Account) : Int := (a.files.map (·.scope.metrics.count)).sum

def totalRow (a : Account) (cells : List String) : List String :=
  "[bold]total[/bold]" :: toString a.count :: cells

def table (a : Account) : Table where
  title := "Cyclomatic complexity"
  columns := columns
  rows := a.files.map Entry.row ++ (a.total.map a.totalRow).toList
  ruledRows := if a.total.isSome then [a.files.length - 1] else []

def trees (a : Account) : List Shown := a.files.flatMap fun e => [.blank, .tree e.scope.view]

def errorLines (a : Account) : List Shown :=
  if a.errors = [] then []
  else
    .blank
      :: .line ("[yellow]" ++ toString a.errors.length ++ " file(s) could not be analyzed:[/yellow]")
      :: a.errors.map fun (path, reason) => .line ("  [dim]" ++ path ++ "[/dim]: " ++ reason)

def page (withScopes : Bool) (a : Account) : List Shown :=
  .table a.table :: (if withScopes then a.trees else []) ++ a.errorLines

structure Of (r : Report Float) (withScopes : Bool) (a : Account) : Prop where
  files : (a.files.map fun e => (e.path, e.scope)).Perm r.files ∧ (a.files.map (·.path)).Pairwise (· < ·)
  figures : ∀ e ∈ a.files, ∃ figures, e.figures? withScopes = some figures ∧ SameFigures figures e.cells
  total : if 2 ≤ r.files.length then ∃ cells, a.total = some cells ∧ SameFigures a.whole cells else a.total = none
  errors : a.errors.Perm r.errors ∧ (a.errors.map (·.1)).Pairwise (· < ·)

structure InOrder (r : Report Float) (withScopes : Bool) (a : Account) : Prop where
  files : (a.files.map fun e => (e.path, e.scope)) = r.files.sorted
  figures : ∀ e ∈ a.files, ∃ figures, e.figures? withScopes = some figures ∧ SameFigures figures e.cells
  total : if 2 ≤ r.files.length then ∃ cells, a.total = some cells ∧ SameFigures a.whole cells else a.total = none
  errors : a.errors = r.errors.sorted

theorem InOrder.of {r : Report Float} {withScopes : Bool} {a : Account} (h : a.InOrder r withScopes)
    (files : r.files.keys.Nodup) (errors : r.errors.keys.Nodup) : a.Of r withScopes where
  files := by
    have paths : a.files.map (·.path) = r.files.sorted.keys := by
      rw [← h.files, Keyed.keys, List.map_map]
      rfl
    rw [h.files, paths]
    exact ⟨r.files.sorted_perm, Keyed.pairwise_keys_sorted files⟩
  figures := h.figures
  total := h.total
  errors := by
    rw [h.errors]
    exact ⟨r.errors.sorted_perm, Keyed.pairwise_keys_sorted errors⟩

end Account

section Files

theorem exists_entry (withScopes : Bool) {scope : Scope Float} (h : ∀ t ∈ scope.walk, t.metrics.HasMean)
    (path : String) :
    ∃ e : Entry, e.path = path ∧ e.scope = scope ∧ recordFile withScopes scope = .ok e.document ∧
      rowOf path scope.metrics = .ok e.row ∧
      ∃ figures, e.figures? withScopes = some figures ∧ SameFigures figures e.cells := by
  obtain ⟨average, mean⟩ := h scope scope.mem_walk_self
  obtain ⟨document, recorded⟩ := exists_recordFile withScopes h
  let m := scope.metrics
  refine ⟨⟨path, scope, document, [m.sum, average, m.least, m.greatest].map Decimal.brief⟩, rfl, rfl,
    recorded, ?row, ?figures⟩
  case row =>
    rw [rowOf, Summary.cells, mean]
    rfl
  case figures =>
    cases withScopes with
    | false =>
      rw [recordFile, if_neg Bool.false_ne_true, Summary.record, mean] at recorded
      cases recorded
      exact ⟨_, rfl, _, _, _, _, rfl, rfl⟩
    | true =>
      rw [recordFile, if_pos rfl] at recorded
      obtain ⟨figures, nested, own, -, rfl⟩ := Scope.written_of_record recorded
      rw [Summary.record, mean] at own
      cases own
      exact ⟨_, rfl, _, _, _, _, rfl, rfl⟩

theorem exists_entries (withScopes : Bool) {files : Keyed (Scope Float)}
    (h : ∀ file ∈ files, ∀ t ∈ file.2.walk, t.metrics.HasMean) :
    ∃ entries : List Entry, (entries.map fun e => (e.path, e.scope)) = files ∧
      recordFiles withScopes files = .ok (entries.map fun e => (e.path, e.document)) ∧
      fileRows files = .ok (entries.map Entry.row) ∧
      ∀ e ∈ entries, ∃ figures, e.figures? withScopes = some figures ∧ SameFigures figures e.cells := by
  induction files with
  | nil => exact ⟨[], rfl, rfl, rfl, List.forall_mem_nil _⟩
  | cons file files ih =>
    obtain ⟨path, scope⟩ := file
    rw [List.forall_mem_cons] at h
    obtain ⟨e, rfl, rfl, recorded, shown, own⟩ := exists_entry withScopes h.1 path
    obtain ⟨entries, rfl, documents, rows, others⟩ := ih h.2
    refine ⟨e :: entries, rfl, ?_, ?_, List.forall_mem_cons.2 ⟨own, others⟩⟩
    · rw [recordFiles, recorded, documents]
      rfl
    · rw [fileRows, shown, rows]
      rfl

end Files

section Whole

variable {r : Report Float}

theorem exists_total (counted : ∀ whole, r.summary = some whole → whole.HasMean) :
    ∃ (whole : Document Float) (total : Option (List String)),
      recordSummary r.summary = .ok whole ∧
      r.totalRows = .ok (total.map fun cells =>
        "[bold]total[/bold]" :: toString (r.files.sorted.map (·.2.metrics.count)).sum :: cells).toList ∧
      if 2 ≤ r.files.length then ∃ cells, total = some cells ∧ SameFigures whole cells else total = none := by
  rw [totalRows]
  cases found : r.summary with
  | none =>
    have empty : r.files = [] := by
      rwa [summary, Summary.combine_eq_none_iff, List.map_eq_nil_iff, Keyed.sorted_eq_nil_iff] at found
    refine ⟨.null, none, rfl, rfl, ?_⟩
    rw [empty]
    rfl
  | some whole =>
    obtain ⟨average, mean⟩ := counted whole found
    have recorded : recordSummary (some whole) = .ok (.object [("sum", .amount whole.sum),
        ("average", .amount average), ("min", .amount whole.least), ("max", .amount whole.greatest)]) := by
      rw [recordSummary, Summary.record, mean]
      rfl
    have count : whole.count = (r.files.sorted.map (·.2.metrics.count)).sum := by
      rw [Summary.count_combine found, List.map_map]
      rfl
    dsimp only
    split
    next single => exact ⟨_, none, recorded, rfl, by rw [if_neg (by omega)]⟩
    next several =>
      refine ⟨_, some ([whole.sum, average, whole.least, whole.greatest].map Decimal.brief), recorded, ?row, ?same⟩
      case row =>
        rw [rowOf, Summary.cells, mean, ← count]
        rfl
      case same =>
        rw [if_pos (by omega)]
        exact ⟨_, rfl, _, _, _, _, rfl, rfl⟩

theorem hasMean_summary (scopes : ∀ file ∈ r.files, 1 ≤ file.2.metrics.count)
    (few : (r.files.map (·.2.metrics.count)).sum < Decimal.Binary64.overflow) {whole : Summary Float}
    (found : r.summary = some whole) : whole.HasMean := by
  have count := count_summary found
  obtain ⟨file, others, files⟩ := List.exists_cons_of_ne_nil (files_ne_nil_of_summary found)
  have some : 1 ≤ whole.count := by
    rw [files, List.forall_mem_cons] at scopes
    have rest : 0 ≤ (others.map (·.2.metrics.count)).sum :=
      List.sum_nonneg (List.forall_mem_map.2 fun other member => by linarith [scopes.2 other member])
    rw [files, List.map_cons, List.sum_cons] at count
    linarith [scopes.1]
  rw [Summary.hasMean_iff some, count]
  exact few

end Whole

/-- The document of a report and what is shown of it say the same, in whichever order files and errors came. -/
structure Agrees (r : Report Float) (withScopes trees : Bool) : Prop where
  account : ∃ a : Account, r.record withScopes = .ok a.document ∧ r.shown trees = .ok (a.page trees) ∧ a.Of r withScopes
  record : ∀ r' : Report Float, r.files.Perm r'.files → r.errors.Perm r'.errors →
    r'.record withScopes = r.record withScopes
  shown : ∀ r' : Report Float, r.files.Perm r'.files → r.errors.Perm r'.errors → r'.shown trees = r.shown trees

section Order

theorem record_perm {α : Type} [Measure α] {r r' : Report α} (files : r.files.keys.Nodup)
    (errors : r.errors.keys.Nodup) (sameFiles : r.files.Perm r'.files) (sameErrors : r.errors.Perm r'.errors)
    (withScopes : Bool) : r'.record withScopes = r.record withScopes := by
  rw [record, record, summary, summary, Keyed.sorted_congr files sameFiles, Keyed.sorted_congr errors sameErrors]

variable {r r' : Report Float}

theorem shown_perm (files : r.files.keys.Nodup) (errors : r.errors.keys.Nodup) (sameFiles : r.files.Perm r'.files)
    (sameErrors : r.errors.Perm r'.errors) (withScopes : Bool) : r'.shown withScopes = r.shown withScopes := by
  have empty : r'.errors.isEmpty = r.errors.isEmpty := by
    rw [Bool.eq_iff_iff, List.isEmpty_iff_length_eq_zero, List.isEmpty_iff_length_eq_zero, sameErrors.length_eq]
  rw [shown, shown, table, table, totalRows, totalRows, shownErrors, shownErrors, summary, summary,
    Keyed.sorted_congr files sameFiles, Keyed.sorted_congr errors sameErrors, sameFiles.length_eq,
    sameErrors.length_eq, empty]

end Order

theorem shownErrors_eq (r : Report Float) (a : Account) (h : a.errors = r.errors.sorted) :
    r.shownErrors = a.errorLines := by
  have none : r.errors.isEmpty ↔ r.errors.sorted = [] := by rw [List.isEmpty_iff, Keyed.sorted_eq_nil_iff]
  rw [shownErrors, Account.errorLines, h, r.errors.sorted_perm.length_eq]
  simp only [none]

section Whole

variable {r : Report Float}

theorem table_eq (a : Account) (same : (a.files.map fun e => (e.path, e.scope)) = r.files.sorted)
    (rows : fileRows r.files.sorted = .ok (a.files.map Entry.row))
    (total : r.totalRows = .ok (a.total.map fun cells =>
      "[bold]total[/bold]" :: toString (r.files.sorted.map (·.2.metrics.count)).sum :: cells).toList) :
    r.table = .ok a.table := by
  have count : (r.files.sorted.map (·.2.metrics.count)).sum = a.count := by
    rw [← same, List.map_map]
    rfl
  rw [Report.table, rows, total, count, Account.table]
  cases a.total with
  | none => rfl
  | some cells => exact congrArg (fun n => Except.ok (Table.mk _ _ _ [n - 1])) (List.length_map _)

theorem exists_account (means : ∀ file ∈ r.files, ∀ t ∈ file.2.walk, t.metrics.HasMean)
    (mean : ∀ whole, r.summary = some whole → whole.HasMean) (withScopes : Bool) :
    ∃ a : Account, r.record withScopes = .ok a.document ∧ (∀ trees, r.shown trees = .ok (a.page trees)) ∧
      a.InOrder r withScopes := by
  obtain ⟨entries, same, documents, rows, figures⟩ := exists_entries withScopes fun file member =>
    means file (r.files.sorted_perm.mem_iff.1 member)
  obtain ⟨whole, total, recorded, totals, atLeastTwo⟩ := exists_total mean
  let a : Account := ⟨entries, whole, total, r.errors.sorted⟩
  refine ⟨a, ?record, ?shown, same, figures, atLeastTwo, rfl⟩
  case record =>
    rw [Report.record, documents, recorded]
    rfl
  case shown =>
    intro trees
    have branches : (r.files.sorted.flatMap fun file => [Shown.blank, .tree file.2.view]) = a.trees := by
      rw [← same, List.flatMap_map]
      rfl
    rw [Report.shown, table_eq a same rows totals, branches, shownErrors_eq r a rfl]
    rfl

end Whole

/-- The document of a report and its table are two writings of one account. Both succeed whatever the depth of the
scopes: a limit to recursion is not modelled. -/
theorem table_agrees_with_record {r : Report Float} (files : r.files.keys.Nodup) (errors : r.errors.keys.Nodup)
    (scopes : ∀ file ∈ r.files, ∀ t ∈ file.2.walk, t.metrics.Counted)
    (few : (r.files.map (·.2.metrics.count)).sum < Decimal.Binary64.overflow) (withScopes trees : Bool) :
    r.Agrees withScopes trees where
  account := by
    have means := fun file member t inside => (scopes file member t inside).hasMean
    have some : ∀ file ∈ r.files, 1 ≤ file.2.metrics.count := fun file member =>
      (scopes file member file.2 file.2.mem_walk_self).1
    obtain ⟨a, recorded, shown, inOrder⟩ := exists_account means (fun whole => hasMean_summary some few) withScopes
    exact ⟨a, recorded, shown trees, inOrder.of files errors⟩
  record r' sameFiles sameErrors := record_perm files errors sameFiles sameErrors withScopes
  shown r' sameFiles sameErrors := shown_perm files errors sameFiles sameErrors trees

def surveyed : Report Float where
  files := [("b.py", ⟨some "b.py", .unit, 1, 1, 1.0, ⟨1.0, 1, 1.0, 1.0⟩, []⟩),
    ("a.py", ⟨some "a.py", .unit, 1, 3, 1.0, ⟨3.0, 2, 1.0, 2.0⟩,
      [⟨some "f", .function, 1, 2, 2.0, ⟨2.0, 1, 2.0, 2.0⟩, []⟩]⟩)]
  errors := [("d.py", "unreadable"), ("c.py", "empty")]

theorem surveyed_agrees : surveyed.Agrees true true := by
  have one : Summary.Counted ⟨1.0, 1, 1.0, 1.0⟩ :=
    ⟨le_rfl, Int.ofNat_lt.2 (Decimal.Binary64.lt_overflow (n := 1) (by decide))⟩
  have two : Summary.Counted ⟨3.0, 2, 1.0, 2.0⟩ :=
    ⟨by decide, Int.ofNat_lt.2 (Decimal.Binary64.lt_overflow (n := 2) (by decide))⟩
  have inner : Summary.Counted ⟨2.0, 1, 2.0, 2.0⟩ := ⟨le_rfl, one.2⟩
  refine table_agrees_with_record (by decide) (by decide) ?scopes ?few true true
  case scopes =>
    rw [surveyed, List.forall_mem_cons, List.forall_mem_singleton, Scope.forall_mem_walk, Scope.forall_mem_walk,
      List.forall_mem_singleton, Scope.forall_mem_walk]
    exact ⟨⟨one, List.forall_mem_nil _⟩, two, inner, List.forall_mem_nil _⟩
  case few => exact Int.ofNat_lt.2 (Decimal.Binary64.lt_overflow (n := 3) (by decide))

theorem forall_of_mapM {α β ε : Type} {f : α → Except ε β} {xs : List α} {ys : List β} (h : xs.mapM f = .ok ys) :
    ∀ x ∈ xs, ∃ y, f x = .ok y := by
  have each := (Scope.forall₂_of_mapM h).imp fun x y made =>
    (⟨⟨y, made⟩, made⟩ : (∃ y, f x = .ok y) ∧ f x = .ok y)
  exact ((List.forall₂_and_left _ _).1 each).1

theorem hasMean_of_record {r : Report Float} {d : Document Float} (h : r.record true = .ok d) :
    ∀ file ∈ r.files, ∀ t ∈ file.2.walk, t.metrics.HasMean := by
  intro file member
  obtain ⟨documents, files, -⟩ := Scope.bind_eq_ok_iff.1 h
  rw [recordFiles_eq_mapM] at files
  obtain ⟨_, made⟩ := forall_of_mapM files file (r.files.sorted_perm.mem_iff.2 member)
  obtain ⟨document, recorded, -⟩ := Scope.bind_eq_ok_iff.1 made
  exact Scope.record_isOk_iff.1 ⟨document, recorded⟩

def crowd : Scope Float := ⟨some "f", .function, 1, 1, 0.0, ⟨0.0, Decimal.Binary64.overflow, 0.0, 0.0⟩, []⟩

def crowded : Report Float where
  files := [("a.py", ⟨some "a.py", .unit, 1, 1, 1.0, ⟨1.0, 1, 1.0, 1.0⟩, [crowd]⟩)]

/-- The table of `crowded` is shown, but its document lacks a mean. -/
theorem crowded_disagrees :
    crowded.files.keys.Nodup ∧ crowded.errors.keys.Nodup ∧
      (∀ file ∈ crowded.files, ∀ t ∈ file.2.walk, 1 ≤ t.metrics.count) ∧
      (∃ shown, crowded.shown false = .ok shown) ∧ ¬crowded.Agrees true false := by
  have nonzero : 1 ≤ crowd.metrics.count := Int.ofNat_le.2 Decimal.Binary64.overflow_pos
  refine ⟨by decide, by decide, ?counted, ?shown, ?disagrees⟩
  case counted =>
    rw [crowded, List.forall_mem_singleton, Scope.forall_mem_walk, List.forall_mem_singleton,
      Scope.forall_mem_walk]
    exact ⟨le_rfl, nonzero, List.forall_mem_nil _⟩
  case shown =>
    have sorted : crowded.files.sorted = crowded.files := List.perm_singleton.1 crowded.files.sorted_perm
    obtain ⟨row, made⟩ := exists_rowOf "a.py" (m := ⟨1.0, 1, 1.0, 1.0⟩) ⟨1.0 / 1.0, rfl⟩
    have total : crowded.totalRows = .ok [] := by
      rw [totalRows, summary, sorted]
      rfl
    rw [shown, table, sorted, total, crowded, fileRows, made]
    exact ⟨_, rfl⟩
  case disagrees =>
    rintro ⟨⟨a, recorded, -, -⟩, -, -⟩
    have means := hasMean_of_record recorded
    rw [crowded, List.forall_mem_singleton, Scope.forall_mem_walk, List.forall_mem_singleton] at means
    exact absurd ((Summary.hasMean_iff nonzero).1 (means.2 crowd crowd.mem_walk_self)) (lt_irrefl _)

end Report

end ScopeComplexity
