import Mathlib.Data.List.TakeWhile
import ScopeComplexity.Proofs.Rules.Kinds

namespace ScopeComplexity

open Syntax

namespace Syntax.Site

theorem climb_kindIn_eq_true_iff {wanted passed : List String} (distinct : ∀ kind ∈ wanted, kind ∉ passed)
    (limit : Nat) (above : List Node) :
    climb (kindIn wanted) (kindNotIn passed) limit above = true ↔
      ((above.map Node.kind).takeWhile passed.contains).length < limit ∧
        ∃ kind ∈ wanted, ((above.map Node.kind).dropWhile passed.contains).head? = some kind := by
  induction limit generalizing above with
  | zero => simp [climb]
  | succ limit ih =>
    cases above with
    | nil => simp [climb]
    | cons n above =>
      rw [climb, List.map_cons, List.takeWhile_cons, List.dropWhile_cons]
      by_cases passes : n.kind ∈ passed
      · have unwanted : n.kind ∉ wanted := fun member => distinct _ member passes
        simp [kindIn, kindNotIn, passes, unwanted, ih above]
      · simp [kindIn, kindNotIn, passes]

end Syntax.Site

theorem splits_of_take_eq {β : Type} {p : β → Bool} {xs ys : List β}
    (same : ys.take ((xs.takeWhile p).length + 1) = xs.take ((xs.takeWhile p).length + 1)) :
    ys.takeWhile p = xs.takeWhile p ∧ (ys.dropWhile p).head? = (xs.dropWhile p).head? := by
  induction xs generalizing ys with
  | nil =>
    have none : ys = [] := by simpa using same
    rw [none]
    exact ⟨rfl, rfl⟩
  | cons x xs ih =>
    cases ys with
    | nil => simp at same
    | cons y ys =>
      by_cases passes : p x = true
      · simp only [List.takeWhile_cons, passes, if_true, List.length_cons, List.take_succ_cons,
          List.cons.injEq] at same
        obtain ⟨rfl, same⟩ := same
        obtain ⟨taken, next⟩ := ih same
        simp [passes, taken, next]
      · have first : y = x := by simpa [List.takeWhile_cons, passes] using same
        simp [first, passes]

namespace Language

def elseClauses (kinds : List String) : List String := kinds.takeWhile (· == "else_clause")

def outside? (kinds : List String) : Option String := (kinds.dropWhile (· == "else_clause")).head?

theorem isDecision_python_else {s : Site} (isElse : s.node.kind = "else") :
    python.rules.isDecision s = isLoopElse s := by
  have decides : python.rules.decisions.contains "else" = true := by decide
  rw [Rules.isDecision, isElse, decides]
  rfl

theorem isLoopElse_eq_true_iff (s : Site) :
    isLoopElse s = true ↔
      (elseClauses (s.above.map Node.kind)).length < Site.searchLimit ∧
        (outside? (s.above.map Node.kind) = some "for_statement" ∨
          outside? (s.above.map Node.kind) = some "while_statement") := by
  have clause : ["else_clause"].contains = (· == "else_clause") := by
    funext kind
    rw [List.contains_cons, List.contains_nil, Bool.or_false]
  rw [isLoopElse, Guard.ancestor, Site.hasAncestor, Site.climb_kindIn_eq_true_iff (by decide), clause]
  simp [elseClauses, outside?]

/-- An `else` is a decision just when the nearest ancestor outside of the clauses around it, past fewer than ten
thousand of them, is a loop. All else that is in the tree may be different: the kinds up to that ancestor alone
tell. -/
theorem isDecision_else_iff {s : Site} (isElse : s.node.kind = "else") :
    let kinds := s.above.map Node.kind
    (python.rules.isDecision s = true ↔
      (elseClauses kinds).length < 10000 ∧
        (outside? kinds = some "for_statement" ∨ outside? kinds = some "while_statement")) ∧
    ∀ s' : Site, s'.node.kind = "else" →
      (s'.above.map Node.kind).take ((elseClauses kinds).length + 1)
        = kinds.take ((elseClauses kinds).length + 1) →
      python.rules.isDecision s' = python.rules.isDecision s := by
  intro kinds
  refine ⟨?_, fun s' isElse' same => ?_⟩
  · rw [isDecision_python_else isElse]
    exact isLoopElse_eq_true_iff s
  · obtain ⟨clauses, next⟩ := splits_of_take_eq same
    rw [isDecision_python_else isElse, isDecision_python_else isElse', Bool.eq_iff_iff,
      isLoopElse_eq_true_iff, isLoopElse_eq_true_iff, elseClauses, outside?, clauses, next]
    rfl

theorem isDecision_else_iff_of_nested :
    let token : Node := .node { kind := "else", named := false } []
    let clause : Node := .node { kind := "else_clause" } [token]
    let inner : Node := .node { kind := "for_statement" } [clause]
    let branch : Node := .node { kind := "if_statement" } [clause]
    let block (n : Node) : Node := .node { kind := "block" } [n]
    let outer (n : Node) : Node := .node { kind := "while_statement" } [block n]
    let ofInner : Site := ⟨token, [clause, inner, block inner, outer inner]⟩
    let ofBranch : Site := ⟨token, [clause, branch, block branch, outer branch]⟩
    let alone : Site := ⟨token, [clause, inner]⟩
    (ofInner.node.kind = "else" ∧ python.rules.isDecision ofInner = true) ∧
      python.rules.isDecision ofBranch = false ∧
      alone.node.kind = "else" ∧
      python.rules.isDecision alone = python.rules.isDecision ofInner := by
  intro token clause inner branch block outer ofInner ofBranch alone
  obtain ⟨decides, elsewhere⟩ := isDecision_else_iff (s := ofInner) rfl
  obtain ⟨decides', -⟩ := isDecision_else_iff (s := ofBranch) rfl
  refine ⟨⟨rfl, decides.2 ⟨by decide, by decide⟩⟩, ?_, rfl, elsewhere alone rfl (by decide)⟩
  rw [← Bool.not_eq_true, decides']
  decide

end Language

end ScopeComplexity
