import ScopeComplexity.Analysis.Project
import ScopeComplexity.Proofs.Analysis.Source
import ScopeComplexity.Proofs.Report.Sized

namespace ScopeComplexity.Analysis

open Syntax

variable {frontEnd : FrontEnd} {host : Host} {settings : Settings} {r r' : Report Float}

def queue (schedule : Schedule) (settings : Settings) (host : Host) (files : List Path) : List Path :=
  if inParallel settings host files then schedule.arrange files else files

theorem queue_perm (schedule : Schedule) (settings : Settings) (host : Host) (files : List Path) :
    (queue schedule settings host files).Perm files := by
  rw [queue]
  split
  · exact schedule.perm files
  · exact .refl _

theorem result_paths {schedule : Schedule} {given files : List Path}
    (found : (Sources.find settings host given).result = .ok files) :
    (paths schedule settings frontEnd host given).result =
      (if inParallel settings host files then checkWorkers settings host else .ok ()) >>= fun _ =>
        (gather (fun p => file settings frontEnd host p none) {} (queue schedule settings host files)).result := by
  have tail (order : List Path) : (do
      let report ← gather (fun p => file settings frontEnd host p none) {} order
      note .info (closing report files)
      return report).result = (gather (fun p => file settings frontEnd host p none) {} order).result := by
    rw [Journal.result_bind]
    cases (gather (fun p => file settings frontEnd host p none) {} order).result <;> rfl
  rw [paths, Journal.result_bind_of_ok found, queue]
  cases inParallel settings host files with
  | false =>
    rw [if_neg Bool.false_ne_true, Journal.result_bind_of_ok rfl, tail]
    rfl
  | true =>
    rw [if_pos rfl, Journal.result_bind]
    cases workers : checkWorkers settings host with
    | error e => rfl
    | ok _ =>
      rw [if_pos rfl, if_pos rfl, ← tail]
      rfl

theorem exists_gather_of_paths {schedule : Schedule} {given : List Path}
    (h : (paths schedule settings frontEnd host given).result = .ok r) :
    ∃ files, (Sources.find settings host given).result = .ok files ∧
      (gather (fun p => file settings frontEnd host p none) {} (queue schedule settings host files)).result = .ok r := by
  obtain ⟨files, found, -⟩ := Journal.result_bind_eq_ok_iff.1 h
  rw [result_paths found] at h
  refine ⟨files, found, ?_⟩
  cases workers : (if inParallel settings host files then checkWorkers settings host else .ok ()) with
  | error e =>
    rw [workers] at h
    cases h
  | ok _ =>
    rw [workers] at h
    exact h

theorem grown_of_file {p : Path} {scope : Scope Float}
    (h : (file settings frontEnd host p none).result = .ok scope) :
    (∀ t ∈ scope.walk, t.Grown) ∧ scope.walk.length ≤ nodes frontEnd host p := by
  obtain ⟨language, reading, found, rfl⟩ := exists_reading_of_file h
  rw [nodes_of_reading found]
  exact ⟨Scope.forall_grown_ofNode _ _ _, Scope.length_walk_ofNode_le _ _ _⟩

theorem sized_collect {limit : Nat} (sized : r.Sized limit) {p : Path}
    (h : (collect r p (file settings frontEnd host p none).result).result = .ok r') :
    r'.Sized (limit + nodes frontEnd host p) := by
  cases outcome : (file settings frontEnd host p none).result with
  | ok scope =>
    rw [outcome] at h
    cases h
    obtain ⟨grown, size⟩ := grown_of_file outcome
    exact sized.addFile grown size _
  | error failure =>
    rw [outcome] at h
    cases failure with
    | defect d => cases h
    | fault f =>
      rw [collect] at h
      split at h
      · cases h
        exact (sized.addError _ _).mono (Nat.le_add_right _ _)
      · cases h

theorem sized_gather {limit : Nat} {order : List Path} (sized : r.Sized limit)
    (h : (gather (fun p => file settings frontEnd host p none) r order).result = .ok r') :
    r'.Sized (limit + (order.map (nodes frontEnd host)).sum) := by
  induction order generalizing r limit with
  | nil =>
    cases h
    exact sized
  | cons p order ih =>
    rw [gather, Journal.result_bind_of_ok (Journal.result_attempt _)] at h
    obtain ⟨r₁, collected, h⟩ := Journal.result_bind_eq_ok_iff.1 h
    rw [List.map_cons, List.sum_cons, ← Nat.add_assoc]
    exact ih (sized_collect sized collected) h

theorem sized_paths {schedule : Schedule} {given files : List Path}
    (found : (Sources.find settings host given).result = .ok files)
    (h : (paths schedule settings frontEnd host given).result = .ok r) :
    r.Sized (files.map (nodes frontEnd host)).sum := by
  obtain ⟨files', found', gathered⟩ := exists_gather_of_paths h
  cases found.symm.trans found'
  have sized := sized_gather Report.Sized.empty gathered
  rwa [Nat.zero_add, ((queue_perm schedule settings host files).map _).sum_eq] at sized

end ScopeComplexity.Analysis
