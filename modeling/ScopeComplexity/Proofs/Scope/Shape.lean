import Mathlib.Data.List.Basic
import ScopeComplexity.Proofs.Scope.Recursion

namespace ScopeComplexity

open Syntax

inductive Shape (μ : Type) where
  | marked (mark : μ) (inner : List (Shape μ))

namespace Shape

variable {μ : Type}

def mark : Shape μ → μ
  | .marked mark _ => mark

def inner : Shape μ → List (Shape μ)
  | .marked _ inner => inner

end Shape

namespace Syntax.Node

/-- What rules read in a node itself. -/
structure Mark where
  kind : String
  named : Bool
  hasBody : Bool
  deriving DecidableEq

def mark (n : Node) : Mark := ⟨n.kind, n.named, (n.child? "body").isSome⟩

mutual

def shape : Node → Shape Mark
  | .node label children => .marked (mark (.node label children)) (shapes children)

def shapes : List Node → List (Shape Mark)
  | [] => []
  | n :: siblings => shape n :: shapes siblings

end

variable {n n' : Node}

theorem mark_eq_of_shape (same : n.shape = n'.shape) : n.mark = n'.mark := by
  cases n
  cases n'
  exact congrArg Shape.mark same

theorem shapes_children_eq_of_shape (same : n.shape = n'.shape) : shapes n.children = shapes n'.children := by
  cases n
  cases n'
  exact congrArg Shape.inner same

theorem kind_eq_of_shape (same : n.shape = n'.shape) : n.kind = n'.kind :=
  congrArg Mark.kind (mark_eq_of_shape same)

end Syntax.Node

namespace Scope

variable {α : Type}

structure Mark (α : Type) where
  kind : ScopeKind
  cyclomatic : α
  metrics : Summary α

def mark (s : Scope α) : Mark α := ⟨s.kind, s.cyclomatic, s.metrics⟩

mutual

def shape : Scope α → Shape (Mark α)
  | ⟨name, kind, startLine, endLine, cyclomatic, metrics, scopes⟩ =>
    .marked (mark ⟨name, kind, startLine, endLine, cyclomatic, metrics, scopes⟩) (shapes scopes)

def shapes : List (Scope α) → List (Shape (Mark α))
  | [] => []
  | s :: others => shape s :: shapes others

end

theorem shapes_eq_map (scopes : List (Scope α)) : shapes scopes = scopes.map shape := by
  induction scopes with
  | nil => rfl
  | cons s others ih => rw [shapes, ih, List.map_cons]

theorem mark_shape (s : Scope α) : s.shape.mark = s.mark := by
  cases s
  rfl

theorem map_metrics_eq_of_shapes {scopes scopes' : List (Scope α)} (same : shapes scopes = shapes scopes') :
    scopes.map (·.metrics) = scopes'.map (·.metrics) := by
  have read (scopes : List (Scope α)) : scopes.map (·.metrics) = (shapes scopes).map (·.mark.metrics) := by
    rw [shapes_eq_map, List.map_map]
    exact List.map_congr_left fun s _ => (congrArg Mark.metrics (mark_shape s)).symm
  rw [read, read, same]

end Scope

section Rules

variable {rules : Rules} {n n' : Node} {above above' : List Node}

theorem Rules.scopeKind_eq_of_shape (same : n.shape = n'.shape) : rules.scopeKind n = rules.scopeKind n' := by
  obtain ⟨kind, named, body⟩ := (Node.Mark.mk.injEq ..).mp (Node.mark_eq_of_shape same)
  rw [scopeKind, scopeKind, kind, named, ← Option.not_isSome, ← Option.not_isSome, body]

theorem Node.map_kind_eq_of_shape (around : above.map Node.kind = above'.map Node.kind) (same : n.shape = n'.shape) :
    (n :: above).map Node.kind = (n' :: above').map Node.kind := by
  rw [List.map_cons, List.map_cons, Node.kind_eq_of_shape same, around]

end Rules

namespace Scope

variable {α : Type} [Measure α] {rules : Rules}

omit [Measure α] in
theorem shapes_append (scopes others : List (Scope α)) : shapes (scopes ++ others) = shapes scopes ++ shapes others := by
  rw [shapes_eq_map, shapes_eq_map, shapes_eq_map, List.map_append]

theorem shape_assemble_congr (kind : ScopeKind) (name name' : Option String) (n n' : Node) (decisions : Nat)
    {inner inner' : List (Scope α)} (same : shapes inner = shapes inner') :
    (assemble kind name n decisions inner).shape = (assemble kind name' n' decisions inner').shape := by
  rw [assemble_eq, assemble_eq, shape, shape, mark, mark, map_metrics_eq_of_shapes same, same]

structure Alike (decisions decisions' : Nat) (scopes scopes' : List (Scope α)) : Prop where
  decisions : decisions = decisions'
  shapes : shapes scopes = shapes scopes'

mutual

theorem alike_at (byKind : rules.ByKind) (n n' : Node) {above above' : List Node}
    (around : above.map Node.kind = above'.map Node.kind) (same : n.shape = n'.shape) :
    Alike (α := α) (rules.decisionsAt above n) (rules.decisionsAt above' n')
      (openedAt rules above n) (openedAt rules above' n') := by
  obtain ⟨label, children⟩ := n
  obtain ⟨label', children'⟩ := n'
  have kinds := Node.map_kind_eq_of_shape around same
  have weight : rules.weigh ⟨.node label children, above⟩ = rules.weigh ⟨.node label' children', above'⟩ :=
    byKind.weigh_congr kinds
  have below := alike_in byKind children children' kinds (Node.shapes_children_eq_of_shape same)
  rw [Rules.decisionsAt, Rules.decisionsAt, Rules.opens, Rules.opens, openedAt, openedAt,
    Rules.scopeKind_eq_of_shape same, weight, below.decisions]
  constructor
  · rfl
  · split
    · exact below.shapes
    · exact congrArg ([·]) (shape_assemble_congr _ _ _ _ _ _ below.shapes)
termination_by structural n

theorem alike_in (byKind : rules.ByKind) (nodes nodes' : List Node) {above above' : List Node}
    (around : above.map Node.kind = above'.map Node.kind) (same : Node.shapes nodes = Node.shapes nodes') :
    Alike (α := α) (rules.decisionsIn above nodes) (rules.decisionsIn above' nodes')
      (openedIn rules above nodes) (openedIn rules above' nodes') := by
  cases nodes with
  | nil =>
    cases nodes' with
    | nil => exact ⟨rfl, rfl⟩
    | cons n' siblings' => cases same
  | cons n siblings =>
    cases nodes' with
    | nil => cases same
    | cons n' siblings' =>
      obtain ⟨first, others⟩ := List.cons.inj same
      have head := alike_at byKind n n' around first
      have tail := alike_in byKind siblings siblings' around others
      rw [Rules.decisionsIn, Rules.decisionsIn, openedIn, openedIn]
      exact ⟨congrArg₂ _ head.decisions tail.decisions, by
        rw [shapes_append, shapes_append, head.shapes, tail.shapes]⟩
termination_by structural nodes

end

end Scope

/-- In every language, syntax trees of one shape have scope trees of one shape: whatever is changed in texts, rows and
fields other than that of the body, only the names and the lines of the scopes can change. -/
theorem ofSite_shape_congr {α : Type} [Measure α] {language : Language} (member : language ∈ Language.all)
    {n n' : Node} (same : n.shape = n'.shape) (name name' : Option String) :
    ∃ t t' : Scope α, Scope.ofSite language.rules (.root n) name = .ok t ∧
      Scope.ofSite language.rules (.root n') name' = .ok t' ∧ t.shape = t'.shape := by
  refine ⟨_, _, Scope.ofSite_eq_ofNode _ _ _, Scope.ofSite_eq_ofNode _ _ _, ?_⟩
  have byKind := Language.byKind_of_mem_all language member
  have kinds : [n].map Node.kind = [n'].map Node.kind := Node.map_kind_eq_of_shape rfl same
  have weight : language.rules.weigh (.root n) = language.rules.weigh (.root n') := byKind.weigh_congr kinds
  have below := Scope.alike_in (α := α) byKind _ _ kinds (Node.shapes_children_eq_of_shape same)
  have decisions : language.rules.decisionsIn [n] n.children = language.rules.decisionsIn [n'] n'.children :=
    below.decisions
  rw [Scope.ofNode, Scope.ofNode, weight, Site.root, Site.root, decisions]
  exact Scope.shape_assemble_congr _ _ _ _ _ _ below.shapes

theorem ofSite_shape_congr_of_renamed :
    let decision := Node.node { kind := "if", named := false } []
    let function := Node.node { kind := "function_definition", endRow := 2, fields := [("declarator", 0)] }
      [.node { kind := "identifier", endRow := 1, text := some "f".toUTF8 } [], decision]
    let function' := Node.node { kind := "function_definition", startRow := 7, endRow := 9 }
      [.node { kind := "identifier", text := some "area".toUTF8 } [], decision]
    let before := Node.node { kind := "translation_unit" }
      [.node { kind := "struct_specifier", endRow := 3, fields := [("name", 0), ("body", 1)] }
        [.node { kind := "type_identifier", text := some "p".toUTF8 } [],
          .node { kind := "field_declaration_list" } [function]]]
    let after := Node.node { kind := "translation_unit" }
      [.node { kind := "struct_specifier", startRow := 6, endRow := 9, fields := [("type", 1), ("body", 0)] }
        [.node { kind := "type_identifier" } [],
          .node { kind := "field_declaration_list", text := some "point".toUTF8 } [function']]]
    before.shape = after.shape ∧ ∃ t t' : Scope Float,
      Scope.ofSite Language.cpp.rules (.root before) (some "a.cpp") = .ok t ∧
        Scope.ofSite Language.cpp.rules (.root after) none = .ok t' ∧ t.shape = t'.shape := by
  intro decision function function' before after
  have same : before.shape = after.shape := rfl
  exact ⟨same, ofSite_shape_congr (by simp [Language.all]) same (some "a.cpp") none⟩

end ScopeComplexity
