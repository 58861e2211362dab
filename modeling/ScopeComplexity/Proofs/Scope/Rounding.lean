import Mathlib.Data.List.Forall2
import ScopeComplexity.Proofs.Decimal.Whole
import ScopeComplexity.Proofs.Scope.Conservation
import ScopeComplexity.Proofs.Scope.Preorder

/-!
The walk on doubles beside the walk on exact numbers. All numbers that either holds are whole, and what is
conserved bounds them by twice the number of nodes; so no addition is rounded while whole numbers of
that size are doubles (`walk_conserves`).
-/

namespace ScopeComplexity

open Syntax

variable {α : Type} [Measure α]

structure Measure.Counts (whole : Nat → α) (limit : Nat) : Prop where
  zero : Measure.zero = whole 0
  one : Measure.one = whole 1
  add : ∀ {a b : Nat}, a + b ≤ limit → Measure.add (whole a) (whole b) = whole (a + b)

namespace Measure

theorem counts_rat (limit : Nat) : Counts (Nat.cast : Nat → Rat) limit where
  zero := Nat.cast_zero.symm
  one := Nat.cast_one.symm
  add _ := (Nat.cast_add _ _).symm

theorem counts_float {limit : Nat} (small : limit < 2 ^ 53) : Counts Decimal.whole limit where
  zero := Decimal.zero_eq_whole
  one := Decimal.one_eq_whole
  add le := Decimal.whole_add_whole (Nat.lt_of_le_of_lt le small)

theorem Counts.raise {whole : Nat → α} {limit : Nat} (counts : Counts whole limit) {n times : Nat}
    (le : n + times ≤ limit) : (Measure.add · Measure.one)^[times] (whole n) = whole (n + times) := by
  induction times with
  | zero => rfl
  | succ times ih =>
    rw [Function.iterate_succ_apply', ih (by omega), counts.one, counts.add (by omega), Nat.add_assoc]

end Measure

def Scope.held (s : Scope α) : List α := s.walk.flatMap fun t => [t.cyclomatic, t.metrics.sum]

omit [Measure α] in
theorem Scope.held_eq (s : Scope α) :
    s.held = s.cyclomatic :: s.metrics.sum :: s.scopes.flatMap Scope.held := by
  rw [held, walk_eq, List.flatMap_cons, List.flatMap_assoc]
  rfl

namespace Opening

def held (o : Opening α) : List α :=
  o.tally.cyclomatic :: o.tally.sum :: o.adopted.flatMap Scope.held

def SameUpTo (whole : Nat → α) (limit : Nat) (x : Rat) (y : α) : Prop :=
  ∃ n ≤ limit, x = n ∧ y = whole n

omit [Measure α] in
theorem SameUpTo.mono {whole : Nat → α} {limit limit' : Nat} (le : limit ≤ limit') (x : Rat) (y : α)
    (h : SameUpTo whole limit x y) : SameUpTo whole limit' x y := by
  obtain ⟨n, bound, same⟩ := h
  exact ⟨n, bound.trans le, same⟩

/-- Two open scopes hold the same whole numbers, one of them in exact numbers: so much for the scope itself and so
much for those inside. -/
structure Mirrors (whole : Nat → α) (n m : Nat) (exact : Opening Rat) (o : Opening α) : Prop where
  exactOwn : exact.tally.cyclomatic = n
  own : o.tally.cyclomatic = whole n
  exactSum : exact.tally.sum = m
  sum : o.tally.sum = whole m
  inner : List.Forall₂ (fun s t => List.Forall₂ (SameUpTo whole m) s.held t.held)
    exact.adopted o.adopted

variable {whole : Nat → α} {limit n m n' m' : Nat} {exact exact' : Opening Rat} {o o' : Opening α}

omit [Measure α] in
theorem Mirrors.total (h : Mirrors whole n m exact o) : exact.total = (n + m : Nat) := by
  rw [Opening.total, h.exactOwn, h.exactSum, Nat.cast_add]

theorem mirrors_ofNode (counts : Measure.Counts whole limit) (node : Node) (kind : ScopeKind)
    (name : Option String) : Mirrors whole 1 0 (ofNode node kind name) (ofNode node kind name) where
  exactOwn := Nat.cast_one.symm
  own := counts.one
  exactSum := Nat.cast_zero.symm
  sum := counts.zero
  inner := .nil

theorem Mirrors.deciding (counts : Measure.Counts whole limit) (h : Mirrors whole n m exact o)
    {decisions : Nat} (le : n + decisions ≤ limit) :
    Mirrors whole (n + decisions) m (exact.grown decisions []) (o.grown decisions []) where
  exactOwn := by
    rw [tally_deciding, Tally.raised_eq, Measure.iterate_add_one, h.exactOwn, Nat.cast_add]
  own := by rw [tally_deciding, Tally.raised_eq, h.own, counts.raise le]
  exactSum := by rw [tally_deciding, Tally.raised_eq, h.exactSum]
  sum := by rw [tally_deciding, Tally.raised_eq, h.sum]
  inner := h.inner

omit [Measure α] in
theorem Mirrors.inner_mono (h : Mirrors whole n m exact o) (le : m ≤ limit) :
    List.Forall₂ (fun s t => List.Forall₂ (SameUpTo whole limit) s.held t.held)
      exact.adopted o.adopted :=
  h.inner.imp fun _ _ same => same.imp (SameUpTo.mono le)

omit [Measure α] in
theorem Mirrors.held (h : Mirrors whole n m exact o) :
    List.Forall₂ (SameUpTo whole (n + m)) exact.held o.held := by
  refine .cons ⟨n, Nat.le_add_right n m, h.exactOwn, h.own⟩ (.cons ?_ ?_)
  · exact ⟨m, Nat.le_add_left m n, h.exactSum, h.sum⟩
  · exact List.rel_flatMap (h.inner_mono (Nat.le_add_left m n)) fun _ _ same => same

theorem Mirrors.finished (counts : Measure.Counts whole limit) (h : Mirrors whole n m exact o)
    (le : m + n ≤ limit) :
    List.Forall₂ (SameUpTo whole (m + n)) exact.finished.held o.finished.held := by
  rw [Scope.held_eq, Scope.held_eq]
  refine .cons ⟨n, Nat.le_add_left n m, h.exactOwn, h.own⟩ (.cons ?_ ?_)
  · refine ⟨m + n, Nat.le_refl (m + n), ?_, ?_⟩
    · rw [sum_finished, h.total, Nat.add_comm]
    · rw [← counts.add le, ← h.sum, ← h.own]
      rfl
  · have reversed := List.rel_reverse (h.inner_mono (Nat.le_add_right m n))
    exact List.rel_flatMap reversed fun _ _ same => same

theorem Mirrors.adopting (counts : Measure.Counts whole limit) (h : Mirrors whole n m exact o)
    (h' : Mirrors whole n' m' exact' o') (le : m + (m' + n') ≤ limit) :
    Mirrors whole n (m + (m' + n')) (exact.grown 0 [exact'.finished]) (o.grown 0 [o'.finished]) where
  exactOwn := h.exactOwn
  own := h.own
  exactSum := by
    have moved : (exact.grown 0 [exact'.finished]).tally.sum
        = exact.tally.sum + exact'.finished.metrics.sum := rfl
    rw [moved, sum_finished, h.exactSum, h'.total, Nat.cast_add m, Nat.add_comm m']
  sum := by
    have moved : (o.grown 0 [o'.finished]).tally.sum
        = Measure.add o.tally.sum (Measure.add o'.tally.sum o'.tally.cyclomatic) := rfl
    rw [moved, h.sum, h'.sum, h'.own, counts.add (by omega), counts.add le]
  inner := by
    refine .cons ?_ (h.inner_mono (Nat.le_add_right _ _))
    exact (h'.finished counts (by omega)).imp (SameUpTo.mono (Nat.le_add_left _ _))

def Mirrored (whole : Nat → α) : List (Opening Rat) → List (Opening α) → Prop :=
  List.Forall₂ fun exact o => ∃ n m, Mirrors whole n m exact o

variable {stack : List (Opening Rat)} {opened : List (Opening α)}

omit [Measure α] in
theorem Mirrored.nonneg (h : Mirrored whole stack opened) : 0 ≤ summed total stack := by
  induction h with
  | nil => exact le_rfl
  | cons head _ ih =>
    obtain ⟨n, m, mirrors⟩ := head
    rw [summed_cons, mirrors.total]
    exact add_nonneg (Nat.cast_nonneg _) ih

omit [Measure α] in
theorem Mirrored.le_of_summed_le (h : Mirrored whole stack opened) (own : exact.total = n)
    (le : summed total (exact :: stack) ≤ limit) : n ≤ limit := by
  rw [summed_cons, own] at le
  exact Nat.cast_le.1 ((le_add_of_nonneg_right h.nonneg).trans le)

theorem Mirrored.folded (counts : Measure.Counts whole limit) (h : Mirrored whole stack opened)
    (le : summed total stack ≤ limit) (count : Nat) :
    Mirrored whole (folded count stack) (folded count opened) := by
  induction count generalizing stack opened with
  | zero => rwa [folded_zero, folded_zero]
  | succ count ih =>
    cases h with
    | nil => exact .nil
    | @cons inner _ _ _ first h =>
      cases h with
      | nil => exact .cons first .nil
      | @cons outer _ rest _ second h =>
        obtain ⟨n', m', mirrors'⟩ := first
        obtain ⟨n, m, mirrors⟩ := second
        have kept : summed total (outer.grown 0 [inner.finished] :: rest) ≤ limit := by
          rw [← folded_zero (_ :: rest), ← Opening.folded, conserved_total.folded]
          exact le
        have moved : (outer.grown 0 [inner.finished]).total = (n + m + (n' + m') : Nat) := by
          rw [conserved_total.adopting, mirrors.total, mirrors'.total, ← Nat.cast_add]
        have fits := Mirrored.le_of_summed_le h moved kept
        exact ih (.cons ⟨_, _, mirrors.adopting counts mirrors' (by omega)⟩ h) kept

theorem Mirrored.deciding (counts : Measure.Counts whole limit)
    (h : Mirrored whole (exact :: stack) (o :: opened)) {decisions : Nat}
    (le : summed total (exact.grown decisions [] :: stack) ≤ limit) :
    Mirrored whole (exact.grown decisions [] :: stack) (o.grown decisions [] :: opened) := by
  obtain ⟨⟨n, m, mirrors⟩, h⟩ := List.forall₂_cons.1 h
  have own : (exact.grown decisions []).total = (n + m + decisions : Nat) := by
    rw [conserved_total.deciding, mirrors.total, nsmul_one, ← Nat.cast_add]
  have fits := Mirrored.le_of_summed_le h own le
  exact .cons ⟨_, _, mirrors.deciding counts (by omega)⟩ h

theorem Mirrored.stacked (counts : Measure.Counts whole limit) (h : Mirrored whole stack opened)
    (rules : Rules) (s : Site) (le : summed total (Walk.stacked rules s stack) ≤ limit) :
    Mirrored whole (Walk.stacked rules s stack) (Walk.stacked rules s opened) := by
  cases opens : rules.scopeKind s.node with
  | some kind =>
    rw [Walk.stacked_of_scopeKind_some opens] at le ⊢
    rw [Walk.stacked_of_scopeKind_some opens]
    exact .deciding counts (.cons ⟨1, 0, mirrors_ofNode counts s.node kind _⟩ h) le
  | none =>
    cases h with
    | nil => simp [Walk.stacked, opens, Mirrored]
    | cons head rest =>
      rw [Walk.stacked_of_scopeKind_none opens] at le ⊢
      rw [Walk.stacked_of_scopeKind_none opens]
      exact .deciding counts (.cons head rest) le

omit [Measure α] in
theorem Mirrored.held (h : Mirrored whole stack opened) (le : summed total stack ≤ limit) :
    List.Forall₂ (SameUpTo whole limit) (stack.flatMap Opening.held) (opened.flatMap Opening.held) := by
  induction h with
  | nil => exact .nil
  | cons head h ih =>
    obtain ⟨n, m, mirrors⟩ := head
    have fits := Mirrored.le_of_summed_le h mirrors.total le
    rw [summed_cons, mirrors.total] at le
    refine List.rel_append (mirrors.held.imp (SameUpTo.mono fits)) (ih ?_)
    exact (le_add_of_nonneg_left (Nat.cast_nonneg _)).trans le

end Opening

namespace Walk

open Opening

variable {rules : Rules} {root : Site} {name : Option String} {taken : List Site}
  {pending : List (Nat × Site)}

theorem Reached.summed_total_le {w : Walk Rat} (h : Reached rules root name taken pending w) :
    summed total w.opened ≤ (2 * root.node.places.length : Nat) := by
  rw [h.summed_eq conserved_total, nsmul_one, nsmul_one, ← Nat.cast_add]
  exact Nat.cast_le.2 h.openings_add_decisions_le

theorem Reached.exists_mirrored {whole : Nat → α} {w : Walk α}
    (counts : Measure.Counts whole (2 * root.node.places.length))
    (h : Reached rules root name taken pending w) :
    ∃ exact : Walk Rat, Reached rules root name taken pending exact ∧
      Mirrored whole exact.opened w.opened := by
  induction h with
  | start started =>
    cases (start_eq rules root name).symm.trans started
    have reached := Reached.start (start_eq (α := Rat) rules root name)
    have unit := mirrors_ofNode counts root.node .unit name
    exact ⟨_, reached, .deciding counts (.cons ⟨1, 0, unit⟩ .nil) reached.summed_total_le⟩
  | @enter taken level below s pending w w' reached entered ih =>
    obtain ⟨exact, reached', mirrored⟩ := ih
    have depth : exact.depth = w.depth := by
      rw [← reached'.steady.depth, ← reached.steady.depth]
      exact mirrored.length_eq
    have settled : Mirrored whole (exact.settled level).opened (w.settled level).opened := by
      rw [Walk.settled, Walk.settled, depth]
      exact mirrored.folded counts reached'.summed_total_le _
    cases (reached.steady.enter_eq rules).symm.trans entered
    have next := reached'.enter (reached'.steady.enter_eq rules)
    exact ⟨_, next, settled.stacked counts rules s next.summed_total_le⟩

theorem Reached.exists_held {whole : Nat → α} {w : Walk α}
    (counts : Measure.Counts whole (2 * root.node.places.length))
    (h : Reached rules root name taken pending w) :
    ∃ exact : Walk Rat, Reached rules root name taken pending exact ∧ ∀ count,
      List.Forall₂ (SameUpTo whole (2 * root.node.places.length))
        ((Opening.close count exact.opened).opened.flatMap Opening.held)
        ((Opening.close count w.opened).opened.flatMap Opening.held) := by
  obtain ⟨exact, reached, mirrored⟩ := h.exists_mirrored counts
  refine ⟨exact, reached, fun count => ?_⟩
  have le := reached.summed_total_le
  rw [opened_close h.steady.isOpen, opened_close reached.steady.isOpen]
  refine (mirrored.folded counts le count).held ?_
  rwa [conserved_total.folded]

end Walk

theorem Scope.exists_held {whole : Nat → α} (rules : Rules) (root : Site) (name : Option String)
    (counts : Measure.Counts whole (2 * root.node.places.length)) :
    ∃ (exact : Scope Rat) (t : Scope α), Scope.ofSite rules root name = .ok exact ∧
      Scope.ofSite rules root name = .ok t ∧
      List.Forall₂ (Opening.SameUpTo whole (2 * root.node.places.length)) exact.held t.held := by
  obtain ⟨taken, w, reached⟩ := Walk.exists_reached_end (α := α) rules root name
  obtain ⟨w', reached', mirrored⟩ := reached.exists_mirrored counts
  obtain ⟨unit, closed, -, -, built⟩ := reached.finish
  obtain ⟨unit', closed', -, -, built'⟩ := reached'.finish
  have le := reached'.summed_total_le
  have last := mirrored.folded counts le (w'.opened.length - 1)
  rw [← Opening.conserved_total.folded (w'.opened.length - 1)] at le
  rw [← Opening.opened_close reached'.steady.isOpen, closed'] at last le
  rw [← Opening.opened_close reached.steady.isOpen, mirrored.length_eq, closed] at last
  obtain ⟨⟨n, m, mirrors⟩, -⟩ := List.forall₂_cons.1 last
  have alone : Opening.Mirrored whole [] [] := .nil
  have fits := alone.le_of_summed_le mirrors.total le
  refine ⟨unit'.finished, unit.finished, built', built, ?_⟩
  have finished := mirrors.finished counts (by omega)
  exact finished.imp (Opening.SameUpTo.mono (by omega))

namespace Opening.SameUpTo

variable {limit : Nat} {xs : List Rat}

theorem forall_mem {ys : List Rat} (h : List.Forall₂ (SameUpTo (Nat.cast : Nat → Rat) limit) xs ys) :
    ∀ y ∈ ys, ∃ n ≤ limit, y = (n : Nat) := by
  induction h with
  | nil => exact List.forall_mem_nil _
  | cons same _ ih =>
    obtain ⟨n, le, -, whole⟩ := same
    exact List.forall_mem_cons.2 ⟨⟨n, le, whole⟩, ih⟩

theorem exactly {ys : List Float} (small : limit < 2 ^ 53)
    (h : List.Forall₂ (SameUpTo Decimal.whole limit) xs ys) : List.Forall₂ Decimal.Exactly xs ys := by
  refine h.imp ?_
  rintro _ _ ⟨n, le, rfl, rfl⟩
  exact Decimal.exactly_whole (Nat.lt_of_le_of_lt le small)

end Opening.SameUpTo

structure Walk.Balanced (rules : Rules) (root : Site) (taken : List Site)
    (opened : List (Opening Rat)) : Prop where
  counts : Opening.summed Opening.count opened = Walk.openings rules taken
  totals : Opening.summed Opening.total opened
    = Walk.openings rules taken + Walk.decisions rules root taken
  whole : ∀ x ∈ opened.flatMap Opening.held, ∃ n ≤ 2 * root.node.places.length, x = (n : Nat)

theorem Walk.Reached.balanced {rules : Rules} {root : Site} {name : Option String} {taken : List Site}
    {pending : List (Nat × Site)} {w : Walk Rat} (h : Walk.Reached rules root name taken pending w)
    (closings : Nat) : Walk.Balanced rules root taken (Opening.close closings w.opened).opened where
  counts := by
    rw [h.summed_close Opening.conserved_count, nsmul_one, nsmul_zero, add_zero]
  totals := by rw [h.summed_close Opening.conserved_total, nsmul_one, nsmul_one]
  whole := by
    obtain ⟨exact, -, same⟩ := h.exists_held (Measure.counts_rat _)
    exact Opening.SameUpTo.forall_mem (same closings)

/-- Wherever the walk comes by, also while it closes scopes, the counts of the open scopes add up to
the scopes opened so far, the unit included, and their totals to these and the decisions taken so
far, the root included. So all numbers held are whole and at most twice the number of nodes, and
on doubles none is rounded in a tree of fewer than 2⁵² nodes. At the end the total exceeds the
count by the decisions in the tree, whatever nodes open a scope. -/
theorem walk_conserves (rules : Rules) (root : Site) (name : Option String) :
    (∀ (taken : List Site) (pending : List (Nat × Site)) (w : Walk Rat),
      Walk.Reached rules root name taken pending w → ∀ closings,
        Walk.Balanced rules root taken (Opening.close closings w.opened).opened) ∧
    (root.node.places.length < 2 ^ 52 →
      (∀ (taken : List Site) (pending : List (Nat × Site)) (w : Walk Float),
        Walk.Reached rules root name taken pending w →
          ∃ exact : Walk Rat, Walk.Reached rules root name taken pending exact ∧ ∀ closings,
            List.Forall₂ Decimal.Exactly
              ((Opening.close closings exact.opened).opened.flatMap Opening.held)
              ((Opening.close closings w.opened).opened.flatMap Opening.held)) ∧
      ∃ (exact : Scope Rat) (t : Scope Float), Scope.ofSite rules root name = .ok exact ∧
        Scope.ofSite rules root name = .ok t ∧ List.Forall₂ Decimal.Exactly exact.held t.held) ∧
    ∃ t : Scope Rat, Scope.ofSite rules root name = .ok t ∧
      (∀ x ∈ t.held, ∃ n ≤ 2 * root.node.places.length, x = (n : Nat)) ∧
      t.metrics.sum - t.metrics.count = rules.decisionCount root ∧
      ∀ rules' : Rules, rules'.decisions = rules.decisions → rules'.guards = rules.guards →
        ∃ t' : Scope Rat, Scope.ofSite rules' root name = .ok t' ∧
          t'.metrics.sum - t'.metrics.count = rules.decisionCount root := by
  refine ⟨fun taken pending w h => h.balanced, fun small => ⟨fun taken pending w h => ?_, ?_⟩, ?_⟩
  · have limit : 2 * root.node.places.length < 2 ^ 53 := by omega
    obtain ⟨exact, reached, same⟩ := h.exists_held (Measure.counts_float limit)
    exact ⟨exact, reached, fun closings => Opening.SameUpTo.exactly limit (same closings)⟩
  · have limit : 2 * root.node.places.length < 2 ^ 53 := by omega
    obtain ⟨exact, t, built, built', same⟩ := Scope.exists_held rules root name (Measure.counts_float limit)
    exact ⟨exact, t, built, built', Opening.SameUpTo.exactly limit same⟩
  · obtain ⟨t, built, excess⟩ := Scope.exists_sum_sub_count rules root name
    obtain ⟨exact, t', -, built', same⟩ := Scope.exists_held rules root name (Measure.counts_rat _)
    cases built.symm.trans built'
    refine ⟨t, built, Opening.SameUpTo.forall_mem same, excess, fun rules' decisions guards => ?_⟩
    rw [← Rules.decisionCount_congr decisions guards]
    exact Scope.exists_sum_sub_count rules' root name

theorem walk_conserves_of_functions :
    let decision := Node.node { kind := "if", named := false } []
    let function := Node.node { kind := "function_definition" } [decision]
    let root := Site.root (.node { kind := "module" } [function, function])
    let taken : List Site := [⟨function, [root.node]⟩, ⟨decision, [function, root.node]⟩,
      ⟨function, [root.node]⟩, ⟨decision, [function, root.node]⟩]
    let rules := Language.python.rules
    let flat : Rules := { decisions := rules.decisions, guards := rules.guards }
    (∃ w : Walk Rat, Walk.Reached rules root none taken [] w ∧ w.opened.length = 2 ∧
      Opening.summed Opening.count w.opened = 3 ∧ Opening.summed Opening.total w.opened = 5) ∧
    (∃ (w : Walk Float) (exact : Walk Rat), Walk.Reached rules root none taken [] w ∧
      Walk.Reached rules root none taken [] exact ∧
      List.Forall₂ Decimal.Exactly (exact.opened.flatMap Opening.held) (w.opened.flatMap Opening.held)) ∧
    ∃ t t' : Scope Rat, Scope.ofSite rules root none = .ok t ∧ Scope.ofSite flat root none = .ok t' ∧
      t.metrics.sum - t.metrics.count = 2 ∧ t'.metrics.sum - t'.metrics.count = 2 := by
  intro decision function root taken rules flat
  have reached (α : Type) [Measure α] : ∃ w : Walk α, Walk.Reached rules root none taken [] w ∧
      w.opened.length = 2 := by
    have start : Walk.Reached rules root none [] _ (Walk.atRoot rules root none : Walk α) :=
      .start (Walk.start_eq _ _ _)
    exact ⟨_, (((start.enter rfl).enter rfl).enter rfl).enter rfl, rfl⟩
  obtain ⟨w, walked, two⟩ := reached Rat
  obtain ⟨w', walked', -⟩ := reached Float
  obtain ⟨balanced, exactly, t, built, -, excess, other⟩ := walk_conserves rules root none
  obtain ⟨t', built', excess'⟩ := other flat rfl rfl
  have opened := balanced taken [] w walked 0
  have small : root.node.places.length < 2 ^ 52 := by decide
  obtain ⟨exact, walkedExact, same⟩ := (exactly small).1 taken [] w' walked'
  have openings : Walk.openings rules taken = 3 := by decide
  have decisions : Walk.decisions rules root taken = 2 := by decide
  have all : rules.decisionCount root = 2 := by decide
  refine ⟨⟨w, walked, two, ?_, ?_⟩, ⟨w', exact, walked', walkedExact, same 0⟩, t, t', built, built', ?_, ?_⟩
  · exact opened.counts.trans (by rw [openings]; rfl)
  · exact opened.totals.trans (by rw [openings, decisions]; norm_num)
  · rw [excess, all]; rfl
  · rw [excess', all]; rfl

end ScopeComplexity
