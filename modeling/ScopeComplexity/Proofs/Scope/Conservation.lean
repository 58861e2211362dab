import Mathlib.Algebra.BigOperators.Group.List.Basic
import Mathlib.Tactic.Abel
import ScopeComplexity.Proofs.Scope.Progress
import ScopeComplexity.Proofs.Statistics.Exact

namespace ScopeComplexity

open Syntax

variable {α M : Type} [Measure α] [AddCommMonoid M]

namespace Opening

/-- An amount that moves whole with a scope that is closed. A new scope brings one amount, a decision
another. -/
structure Conserved (amount : Opening α → M) (opening decision : M) : Prop where
  ofNode : ∀ n kind name, amount (.ofNode n kind name) = opening
  deciding : ∀ o decisions, amount (o.grown decisions []) = amount o + decisions • decision
  adopting : ∀ outer inner, amount (outer.grown 0 [inner.finished]) = amount outer + amount inner

def summed (amount : Opening α → M) (opened : List (Opening α)) : M := (opened.map amount).sum

omit [Measure α] in
theorem summed_cons (amount : Opening α → M) (o : Opening α) (rest : List (Opening α)) :
    summed amount (o :: rest) = amount o + summed amount rest :=
  List.sum_cons

variable {amount : Opening α → M} {opening decision : M}

theorem Conserved.folded (h : Conserved amount opening decision) (count : Nat) (opened : List (Opening α)) :
    summed amount (folded count opened) = summed amount opened := by
  induction count, opened using folded.induct with
  | case1 count inner outer rest ih =>
    rw [Opening.folded, ih, summed_cons, summed_cons, summed_cons, h.adopting, add_comm (amount outer),
      add_assoc]
  | case2 count opened short => rw [folded.eq_2 count opened short]

theorem Conserved.stacked (h : Conserved amount opening decision) (inner : Opening α)
    (rest : List (Opening α)) (rules : Rules) (s : Site) :
    summed amount (Walk.stacked rules s (inner :: rest))
      = summed amount (inner :: rest) + rules.deepens s.node • opening + rules.weigh s • decision := by
  cases opens : rules.scopeKind s.node with
  | some kind =>
    rw [Walk.stacked_of_scopeKind_some opens, summed_cons, h.deciding, h.ofNode,
      Rules.deepens_of_some opens, one_nsmul, add_right_comm, add_comm opening]
  | none =>
    rw [Walk.stacked_of_scopeKind_none opens, summed_cons, summed_cons, h.deciding,
      Rules.deepens_of_none opens, zero_nsmul, add_zero, add_right_comm]

theorem opened_close {opened : List (Opening α)} (h : ∀ o ∈ opened, o.IsOpen) (count : Nat) :
    (close count opened).opened = folded count opened := by
  induction count, opened using folded.induct with
  | case1 count inner outer rest ih =>
    rw [List.forall_mem_cons, List.forall_mem_cons] at h
    rw [close, closeOne_of_isOpen h.1 h.2.1, folded]
    exact ih (List.forall_mem_cons.2 ⟨h.2.1.grown 0 _, h.2.2⟩)
  | case2 count opened short =>
    rw [folded.eq_2 count opened short]
    cases count with
    | zero => rfl
    | succ count =>
      obtain _ | ⟨inner, _ | ⟨outer, rest⟩⟩ := opened
      · rfl
      · rfl
      · exact (short count inner outer rest rfl rfl).elim

theorem tally_deciding (o : Opening α) (decisions : Nat) :
    (o.grown decisions []).tally = Tally.raised^[decisions] o.tally :=
  rfl

def count (o : Opening α) : Int := o.tally.count

theorem count_finished (o : Opening α) : o.finished.metrics.count = o.count := rfl

theorem conserved_count : Conserved (count : Opening α → Int) 1 0 where
  ofNode _ _ _ := rfl
  deciding o decisions := by rw [count, tally_deciding, Tally.raised_eq, nsmul_zero, add_zero, count]
  adopting _ _ := rfl

def total (o : Opening Rat) : Rat := o.tally.cyclomatic + o.tally.sum

theorem sum_finished (o : Opening Rat) : o.finished.metrics.sum = o.total := add_comm _ _

theorem conserved_total : Conserved total 1 1 where
  ofNode _ _ _ := add_zero 1
  deciding o decisions := by
    rw [total, tally_deciding, Tally.raised_eq, Measure.iterate_add_one, total, add_right_comm, nsmul_one]
  adopting outer inner := by
    rw [← sum_finished inner]
    exact (add_assoc _ _ _).symm

end Opening

namespace Walk

variable {rules : Rules} {root : Site} {name : Option String} {taken : List Site}
  {pending : List (Nat × Site)} {w : Walk α} {amount : Opening α → M} {opening decision : M}

def openings (rules : Rules) (taken : List Site) : Nat := 1 + taken.countP fun s => rules.opens s.node

def decisions (rules : Rules) (root : Site) (taken : List Site) : Nat :=
  (root :: taken).countP rules.isDecision

theorem openings_concat (rules : Rules) (taken : List Site) (s : Site) :
    openings rules (taken ++ [s]) = openings rules taken + rules.deepens s.node := by
  rw [openings, openings, List.countP_append, List.countP_singleton, Rules.deepens, Nat.add_assoc]

theorem decisions_concat (rules : Rules) (root : Site) (taken : List Site) (s : Site) :
    decisions rules root (taken ++ [s]) = decisions rules root taken + rules.weigh s := by
  rw [decisions, decisions, ← List.cons_append, List.countP_append, List.countP_singleton, Rules.weigh]

theorem Reached.summed_eq (conserved : Opening.Conserved amount opening decision)
    (h : Reached rules root name taken pending w) :
    Opening.summed amount w.opened
      = openings rules taken • opening + decisions rules root taken • decision := by
  induction h with
  | start started =>
    cases (start_eq rules root name).symm.trans started
    have weigh : decisions rules root [] = rules.weigh root := by
      rw [decisions, List.countP_singleton, Rules.weigh]
    have unit : openings rules [] = 1 := rfl
    rw [atRoot, Opening.summed_cons, conserved.deciding, conserved.ofNode, weigh, unit, one_nsmul]
    exact add_zero _
  | enter reached entered ih =>
    obtain ⟨inner, rest, opened⟩ := reached.steady.exists_cons
    cases (reached.steady.enter_eq rules).symm.trans entered
    rw [opened, conserved.stacked, ← opened, settled, conserved.folded, ih, openings_concat,
      decisions_concat, add_nsmul, add_nsmul]
    abel

theorem Reached.summed_close (conserved : Opening.Conserved amount opening decision)
    (h : Reached rules root name taken pending w) (count : Nat) :
    Opening.summed amount (Opening.close count w.opened).opened
      = openings rules taken • opening + decisions rules root taken • decision := by
  rw [Opening.opened_close h.steady.isOpen, conserved.folded, h.summed_eq conserved]

theorem Reached.length_le (h : Reached rules root name taken pending w) :
    (root :: taken).length ≤ root.node.places.length := by
  have inOrder := congrArg List.length h.inOrder
  simp only [List.length_cons, List.length_append, List.length_map] at inOrder ⊢
  omega

theorem Reached.openings_add_decisions_le (h : Reached rules root name taken pending w) :
    openings rules taken + decisions rules root taken ≤ 2 * root.node.places.length := by
  have bound := h.length_le
  have opened := List.countP_le_length (p := fun s => rules.opens s.node) (l := taken)
  have decided := List.countP_le_length (p := rules.isDecision) (l := root :: taken)
  rw [openings, decisions]
  rw [List.length_cons] at bound decided
  omega

end Walk

def Rules.decisionCount (rules : Rules) (root : Site) : Nat :=
  root.node.places.countP fun p => rules.isDecision (root.below p)

theorem Rules.decisionCount_congr {rules rules' : Rules} (decisions : rules'.decisions = rules.decisions)
    (guards : rules'.guards = rules.guards) (root : Site) :
    rules'.decisionCount root = rules.decisionCount root := by
  have same : rules'.isDecision = rules.isDecision := by
    funext s
    rw [isDecision, isDecision, decisions, guards]
  rw [decisionCount, same, decisionCount]

theorem Scope.exists_sum_sub_count (rules : Rules) (root : Site) (name : Option String) :
    ∃ t : Scope Rat, Scope.ofSite rules root name = .ok t ∧
      t.metrics.sum - t.metrics.count = rules.decisionCount root := by
  obtain ⟨taken, w, reached⟩ := Walk.exists_reached_end (α := Rat) rules root name
  obtain ⟨unit, closed, -, -, built⟩ := reached.finish
  have total := reached.summed_close Opening.conserved_total (w.opened.length - 1)
  have count := reached.summed_close Opening.conserved_count (w.opened.length - 1)
  have all : Walk.decisions rules root taken = rules.decisionCount root := by
    have inOrder := reached.inOrder
    rw [List.map_nil, Site.preorder, List.append_nil] at inOrder
    rw [Walk.decisions, inOrder, List.countP_map]
    rfl
  rw [closed, all] at total count
  have total : unit.total = Walk.openings rules taken + rules.decisionCount root := by
    simpa [Opening.summed] using total
  have count : unit.count = Walk.openings rules taken := by
    simpa [Opening.summed] using count
  refine ⟨unit.finished, built, ?_⟩
  rw [Opening.sum_finished, Opening.count_finished, total, count, Int.cast_natCast, add_sub_cancel_left]

end ScopeComplexity
