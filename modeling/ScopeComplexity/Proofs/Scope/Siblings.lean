import Mathlib.Algebra.BigOperators.Group.Multiset.Basic
import Mathlib.Data.Fin.VecNotation
import Mathlib.Data.Multiset.Bind
import ScopeComplexity.Proofs.Scope.Recursion
import ScopeComplexity.Proofs.Statistics.Exact
import ScopeComplexity.Proofs.Syntax.Reordering

namespace ScopeComplexity

open Syntax

/-- Two scope trees are the same but for the order in which sibling scopes stand. -/
inductive Scope.Reordered {α : Type} : Scope α → Scope α → Prop where
  | scope (name : Option String) (kind : ScopeKind) (startLine endLine : Int) (cyclomatic : α)
      (metrics : Summary α) {scopes scopes' : List (Scope α)}
      (inner : Multiset.Rel Reordered (scopes : Multiset (Scope α)) (scopes' : Multiset (Scope α))) :
      Reordered ⟨name, kind, startLine, endLine, cyclomatic, metrics, scopes⟩
        ⟨name, kind, startLine, endLine, cyclomatic, metrics, scopes'⟩

theorem Scope.Reordered.metrics_eq {α : Type} {s s' : Scope α} (h : s.Reordered s') :
    s.metrics = s'.metrics := by
  cases h
  rfl

def Scope.Paired {α : Type} (scopes scopes' : List (Scope α)) : Prop :=
  Multiset.Rel Reordered (scopes : Multiset (Scope α)) (scopes' : Multiset (Scope α))

namespace Rules

variable {rules : Rules}

theorem decisionsIn_eq_sum (above nodes : List Node) :
    rules.decisionsIn above nodes = (nodes.map (rules.decisionsAt above)).sum := by
  induction nodes with
  | nil => rfl
  | cons n siblings ih => rw [decisionsIn, ih, List.map_cons, List.sum_cons]

theorem decisionsAt_eq (above : List Node) (n : Node) :
    rules.decisionsAt above n
      = if rules.opens n then 0
        else rules.weigh ⟨n, above⟩ + rules.decisionsIn (n :: above) n.children := by
  cases n
  rfl

theorem scopeKind_eq_of_reordered {n n' : Node} (h : n.Reordered n') :
    rules.scopeKind n = rules.scopeKind n' := by
  have body := h.child? "body"
  rw [scopeKind, scopeKind, h.kind_eq, h.named_eq]
  generalize n.child? "body" = a, n'.child? "body" = a' at body ⊢
  cases body with
  | some related => rfl
  | none => rfl

theorem decisionsIn_congr {above above' : List Node} {nodes nodes' : List Node}
    (pairs : Multiset.Rel (fun n n' => rules.decisionsAt above n = rules.decisionsAt above' n')
      nodes nodes') : rules.decisionsIn above nodes = rules.decisionsIn above' nodes' := by
  have same : (nodes : Multiset Node).map (rules.decisionsAt above)
      = (nodes' : Multiset Node).map (rules.decisionsAt above') :=
    Multiset.rel_eq.1 (Multiset.rel_map.2 pairs)
  have sums := congrArg Multiset.sum same
  rwa [Multiset.map_coe, Multiset.map_coe, Multiset.sum_coe, Multiset.sum_coe, ← decisionsIn_eq_sum,
    ← decisionsIn_eq_sum] at sums

end Rules

namespace Scope

theorem openedIn_eq_flatMap {α : Type} [Measure α] (rules : Rules) (above nodes : List Node) :
    openedIn (α := α) rules above nodes = nodes.flatMap (openedAt rules above) := by
  induction nodes with
  | nil => rfl
  | cons n siblings ih => rw [openedIn, ih, List.flatMap_cons]

theorem openedIn_congr {rules : Rules} {above above' : List Node} {nodes nodes' : List Node}
    (pairs : Multiset.Rel (fun n n' =>
      Paired (α := Rat) (openedAt rules above n) (openedAt rules above' n')) nodes nodes') :
    Paired (α := Rat) (openedIn rules above nodes) (openedIn rules above' nodes') := by
  rw [Paired, openedIn_eq_flatMap, openedIn_eq_flatMap, ← Multiset.coe_bind, ← Multiset.coe_bind]
  apply Multiset.rel_bind _ pairs
  intro n n' h
  exact h

theorem assemble_reordered (kind : ScopeKind) (name : Option String) {n n' : Node}
    (lines : n.lines = n'.lines) (decisions : Nat) {inner inner' : List (Scope Rat)}
    (h : Paired inner inner') :
    (assemble kind name n decisions inner).Reordered (assemble kind name n' decisions inner') := by
  have metrics : (inner.map (·.metrics)).Perm (inner'.map (·.metrics)) := by
    rw [← Multiset.coe_eq_coe, ← Multiset.map_coe, ← Multiset.map_coe, ← Multiset.rel_eq,
      Multiset.rel_map]
    exact h.mono fun _ _ _ _ related => related.metrics_eq
  rw [assemble_eq, assemble_eq, lines, Summary.over_perm _ metrics]
  exact Reordered.scope _ _ _ _ _ _ h

variable {rules : Rules}

theorem openedAt_eq {α : Type} [Measure α] (above : List Node) (n : Node) :
    openedAt (α := α) rules above n
      = match rules.scopeKind n with
        | none => openedIn rules (n :: above) n.children
        | some kind =>
          [assemble kind (Walk.labelOf kind n) n
            (rules.weigh ⟨n, above⟩ + rules.decisionsIn (n :: above) n.children)
            (openedIn rules (n :: above) n.children)] := by
  cases n
  rfl

structure Below (rules : Rules) (above above' : List Node) (n n' : Node) : Prop where
  decisions : rules.decisionsIn (n :: above) n.children = rules.decisionsIn (n' :: above') n'.children
  scopes : Paired (α := Rat) (openedIn rules (n :: above) n.children)
    (openedIn rules (n' :: above') n'.children)

variable {n n' : Node} {above above' : List Node}

theorem kinds_of_reordered (same : above.map Node.kind = above'.map Node.kind) (h : n.Reordered n') :
    (⟨n, above⟩ : Site).kinds = (⟨n', above'⟩ : Site).kinds := by
  rw [Site.kinds, Site.kinds, h.kind_eq, same]

theorem Below.decisionsAt_eq (byKind : rules.ByKind)
    (same : above.map Node.kind = above'.map Node.kind) (h : n.Reordered n')
    (below : Below rules above above' n n') :
    rules.decisionsAt above n = rules.decisionsAt above' n' := by
  rw [Rules.decisionsAt_eq, Rules.decisionsAt_eq, Rules.opens, Rules.opens,
    Rules.scopeKind_eq_of_reordered h, byKind.weigh_congr (kinds_of_reordered same h), below.decisions]

theorem Below.openedAt_paired (byKind : rules.ByKind)
    (same : above.map Node.kind = above'.map Node.kind) (h : n.Reordered n')
    (below : Below rules above above' n n') :
    Paired (α := Rat) (openedAt rules above n) (openedAt rules above' n') := by
  rw [openedAt_eq, openedAt_eq, Rules.scopeKind_eq_of_reordered h]
  split
  · exact below.scopes
  · rw [Walk.labelOf, Walk.labelOf, h.scopeName_eq, byKind.weigh_congr (kinds_of_reordered same h),
      below.decisions]
    exact Multiset.Rel.cons (assemble_reordered _ _ h.lines_eq _ below.scopes) Multiset.Rel.zero

theorem below_of_reordered (byKind : rules.ByKind)
    (same : above.map Node.kind = above'.map Node.kind) (h : n.Reordered n') :
    Below rules above above' n n' := by
  induction h generalizing above above' with
  | node label σ each ih =>
    have deeper := kinds_of_reordered same (Node.Reordered.node label σ each)
    constructor
    · apply Rules.decisionsIn_congr
      exact rel_moved σ fun i => Below.decisionsAt_eq byKind deeper (each i) (ih i deeper)
    · apply openedIn_congr
      exact rel_moved σ fun i => Below.openedAt_paired byKind deeper (each i) (ih i deeper)

end Scope

/-- Wherever siblings are reordered in a syntax tree, its scope tree keeps all scopes with all that they are and
contain, and only siblings among them are reordered. -/
theorem ofSite_reordered {rules : Rules} (byKind : rules.ByKind) {n n' : Node} (h : n.Reordered n')
    (above : List Node) (name : Option String) :
    ∃ t t' : Scope Rat, Scope.ofSite rules ⟨n, above⟩ name = .ok t ∧
      Scope.ofSite rules ⟨n', above⟩ name = .ok t' ∧ t.Reordered t' := by
  refine ⟨_, _, Scope.ofSite_eq_ofNode rules ⟨n, above⟩ name,
    Scope.ofSite_eq_ofNode rules ⟨n', above⟩ name, ?_⟩
  have below : Scope.Below rules above above n n' := Scope.below_of_reordered byKind rfl h
  rw [Scope.ofNode, Scope.ofNode, byKind.weigh_congr (Scope.kinds_of_reordered rfl h), below.decisions]
  exact Scope.assemble_reordered .unit name h.lines_eq _ below.scopes

theorem ofSite_reordered_of_swap :
    let decision := Node.node { kind := "if", named := false } []
    let name := Node.node { kind := "identifier", text := some "f".toUTF8 } []
    let function := Node.node { kind := "function_definition", fields := [("name", 0)] } [name, decision]
    let function' := Node.node { kind := "function_definition", fields := [("name", 1)] } [decision, name]
    let before := Node.node { kind := "module" } [decision, function]
    let after := Node.node { kind := "module" } [function', decision]
    before.Reordered after ∧ ∃ t t' : Scope Rat,
      Scope.ofSite Language.python.rules ⟨before, []⟩ none = .ok t ∧
        Scope.ofSite Language.python.rules ⟨after, []⟩ none = .ok t' ∧ t.Reordered t' := by
  intro decision name function function' before after
  have inside : function.Reordered function' :=
    Node.Reordered.node _ (Equiv.swap 0 1) fun i => Node.reordered_refl _
  have swapped : before.Reordered after :=
    @Node.Reordered.node { kind := "module" } [decision, function] (Equiv.swap 0 1)
      ![decision, function'] (Fin.forall_fin_two.2 ⟨Node.reordered_refl decision, inside⟩)
  exact ⟨swapped, ofSite_reordered (Language.byKind_of_mem_all _ List.mem_cons_self) swapped [] none⟩

end ScopeComplexity
