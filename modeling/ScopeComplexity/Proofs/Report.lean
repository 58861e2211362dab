import ScopeComplexity.Proofs.Scope.Means
import ScopeComplexity.Report.Display

namespace ScopeComplexity

open Json (Document)

theorem exists_mapM {α β ε : Type} {f : α → Except ε β} {xs : List α} (h : ∀ x ∈ xs, ∃ y, f x = .ok y) :
    ∃ ys, xs.mapM f = .ok ys := by
  induction xs with
  | nil => exact ⟨[], rfl⟩
  | cons x xs ih =>
    rw [List.forall_mem_cons] at h
    obtain ⟨y, first⟩ := h.1
    obtain ⟨ys, others⟩ := ih h.2
    refine ⟨y :: ys, ?_⟩
    rw [List.mapM_cons, first, others]
    rfl

section Record

variable {α : Type} [Measure α]

theorem Summary.HasMean.exists_record {m : Summary α} (h : m.HasMean) : ∃ document, m.record = .ok document := by
  obtain ⟨average, h⟩ := h
  rw [record, h]
  exact ⟨_, rfl⟩

theorem Scope.recordAll_eq_mapM (scopes : List (Scope α)) : recordAll scopes = scopes.mapM record := by
  induction scopes with
  | nil => rfl
  | cons s scopes ih => rw [recordAll, List.mapM_cons, ih]

theorem Scope.exists_record {s : Scope α} (h : ∀ t ∈ s.walk, t.metrics.HasMean) :
    ∃ document, s.record = .ok document := by
  induction s using Scope.induction with
  | scope s ih =>
    rw [forall_mem_walk] at h
    obtain ⟨own, metrics⟩ := h.1.exists_record
    obtain ⟨documents, nested⟩ := exists_mapM fun c member => ih c member (h.2 c member)
    obtain ⟨name, kind, startLine, endLine, cyclomatic, summary, scopes⟩ := s
    rw [record, metrics, recordAll_eq_mapM, nested]
    exact ⟨_, rfl⟩

theorem Summary.count_combine {summaries : List (Summary α)} {whole : Summary α}
    (h : combine summaries = some whole) : whole.count = (summaries.map (·.count)).sum := by
  induction summaries using List.reverseRecOn generalizing whole with
  | nil => cases h
  | append_singleton summaries last ih =>
    rw [combine, List.foldl_concat, Option.some.injEq, ← combine] at h
    rw [List.map_append, List.sum_append, List.map_singleton, List.sum_singleton, ← h]
    cases before : combine summaries with
    | none =>
      rw [combine_eq_none_iff.1 before]
      simp [join]
    | some whole' => rw [join, merge, ih before]

end Record

namespace Report

theorem recordFiles_eq_mapM {α : Type} [Measure α] (withScopes : Bool) (files : Keyed (Scope α)) :
    recordFiles withScopes files =
      files.mapM fun file => do return (file.1, ← recordFile withScopes file.2) := by
  induction files with
  | nil => rfl
  | cons file files ih =>
    rw [recordFiles, List.mapM_cons, ih]
    cases recordFile withScopes file.2 <;> rfl

theorem count_summary {α : Type} [Measure α] {r : Report α} {whole : Summary α} (found : r.summary = some whole) :
    whole.count = (r.files.map (·.2.metrics.count)).sum := by
  rw [Summary.count_combine found, List.map_map]
  exact (r.files.sorted_perm.map _).sum_eq

theorem files_ne_nil_of_summary {α : Type} [Measure α] {r : Report α} {whole : Summary α}
    (found : r.summary = some whole) : r.files ≠ [] := by
  intro none
  rw [summary, Keyed.sorted_eq_nil_iff.2 none] at found
  cases found

theorem exists_recordFile {α : Type} [Measure α] (withScopes : Bool) {scope : Scope α}
    (h : ∀ t ∈ scope.walk, t.metrics.HasMean) : ∃ document, recordFile withScopes scope = .ok document := by
  rw [recordFile]
  split
  · exact Scope.exists_record h
  · exact (h scope scope.mem_walk_self).exists_record

theorem exists_rowOf {m : Summary Float} (title : String) (h : m.HasMean) : ∃ row, rowOf title m = .ok row := by
  obtain ⟨average, h⟩ := h
  rw [rowOf, Summary.cells, h]
  exact ⟨_, rfl⟩

end Report

end ScopeComplexity
