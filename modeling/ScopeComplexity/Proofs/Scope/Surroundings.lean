import Mathlib.Data.List.Forall2
import ScopeComplexity.Proofs.Scope.Nesting
import ScopeComplexity.Proofs.Scope.Preorder
import ScopeComplexity.Rules.Language

namespace ScopeComplexity

open Syntax

variable {α : Type} [Measure α]

namespace Scope

def ofOpener (rules : Rules) (s : Site) : Option (Scope α) :=
  (rules.scopeKind s.node).map fun kind =>
    { ofNode rules s none with kind, name := Walk.labelOf kind s.node }

theorem ofNode_name (rules : Rules) (s : Site) (name name' : Option String) :
    (ofNode rules s name' : Scope α) = { ofNode rules s name with name := name' } := by
  rw [ofNode, ofNode, assemble_eq, assemble_eq]

theorem openedAt_of_opener {rules : Rules} {n : Node} {above : List Node} {kind : ScopeKind}
    (opener : rules.scopeKind n = some kind) :
    openedAt (α := α) rules above n = (ofOpener rules ⟨n, above⟩).toList := by
  obtain ⟨label, children⟩ := n
  rw [openedAt, ofOpener]
  simp only [opener, ofNode, assemble_eq]
  rfl

theorem walk_ofOpener {rules : Rules} {s : Site} {t : Scope α} (opened : ofOpener rules s = some t) :
    t.walk = t :: (openedIn rules (s.node :: s.above) s.node.children).flatMap walk := by
  obtain ⟨kind, -, rfl⟩ := Option.map_eq_some_iff.1 opened
  rw [walk_eq, ofNode, assemble_eq]

end Scope

namespace Rules

def Opened (rules : Rules) (root : Site) (p : Place) (s : Scope α) : Prop :=
  Scope.ofOpener rules (root.below p) = some s

mutual

theorem opened_openedAt (rules : Rules) (root : Site) (n : Node) {above : List Node} {p : Place}
    {i : Nat} (lies : root.below (p ++ [i]) = ⟨n, above⟩) :
    List.Forall₂ (rules.Opened (α := α) root)
      ((n.placesAt (p ++ [i])).filter (rules.opensAt root))
      ((Scope.openedAt rules above n).flatMap Scope.walk) := by
  obtain ⟨label, children⟩ := n
  have inner := opened_openedIn rules root children (Site.liesFrom_children lies)
  rw [Node.placesAt, List.filter_cons, opensAt_concat, lies, opens]
  cases opener : rules.scopeKind (.node label children) with
  | none =>
    rw [Scope.openedAt, opener]
    exact inner
  | some kind =>
    obtain ⟨s, opened⟩ : ∃ s : Scope α, Scope.ofOpener rules ⟨.node label children, above⟩ = some s :=
      ⟨_, congrArg (Option.map _) opener⟩
    rw [Scope.openedAt_of_opener opener, opened, Option.toList_some, List.flatMap_singleton,
      Scope.walk_ofOpener opened]
    have here : rules.Opened root (p ++ [i]) s := by rwa [Opened, lies]
    exact .cons here inner

theorem opened_openedIn (rules : Rules) (root : Site) (nodes : List Node) {above : List Node}
    {p : Place} {i : Nat} (lies : root.LiesFrom p i above nodes) :
    List.Forall₂ (rules.Opened (α := α) root)
      ((Node.placesFrom p i nodes).filter (rules.opensAt root))
      ((Scope.openedIn rules above nodes).flatMap Scope.walk) := by
  cases nodes with
  | nil => exact .nil
  | cons n siblings =>
    rw [Node.placesFrom, List.filter_append, Scope.openedIn, List.flatMap_append]
    exact List.rel_append (opened_openedAt rules root n lies.head)
      (opened_openedIn rules root siblings lies.tail)

end

theorem opened_ofNode (rules : Rules) (root : Site) (name : Option String) :
    ∃ inner, (Scope.ofNode rules root name : Scope α).walk = Scope.ofNode rules root name :: inner ∧
      List.Forall₂ (rules.Opened root) (rules.openers root) inner := by
  refine ⟨_, Scope.walk_eq _, ?_⟩
  rw [Scope.ofNode, Scope.assemble_eq, openers_eq]
  exact opened_openedIn rules root root.node.children (Site.liesFrom_root_children root)

/-- The scope that the node at a place has in a tree. The places that open scopes, the root before them, are
in the order in which the tree is walked. -/
def scopeAt? (rules : Rules) (root : Site) (t : Scope α) (p : Place) : Option (Scope α) :=
  (([] :: rules.openers root).zip t.walk).lookup p

end Rules

theorem lookup_zip_of_forall₂ {β γ : Type} [BEq β] [LawfulBEq β] {R : β → γ → Prop} {keys : List β}
    {values : List γ} (related : List.Forall₂ R keys values) {key : β} (member : key ∈ keys) :
    ∃ value, (keys.zip values).lookup key = some value ∧ R key value := by
  induction related with
  | nil => cases member
  | @cons k v keys values first _ ih =>
    rw [List.zip_cons_cons, List.lookup_cons]
    by_cases same : key = k
    · subst same
      exact ⟨v, by rw [beq_self_eq_true], first⟩
    · rw [beq_eq_false_iff_ne.2 same]
      exact ih ((List.mem_cons.1 member).resolve_left same)

namespace Rules

theorem mem_openers {rules : Rules} {root : Site} {p : Place} (member : p ∈ root.node.places)
    (below : p ≠ []) {kind : ScopeKind} (opener : rules.scopeKind (root.below p).node = some kind) :
    p ∈ rules.openers root := by
  refine List.mem_filter.2 ⟨member, ?_⟩
  rw [opens, opener, Option.isSome_some, Bool.and_true, Bool.not_eq_true', List.isEmpty_eq_false_iff]
  exact below

theorem ne_nil_of_mem_openers {rules : Rules} {root : Site} {p : Place}
    (member : p ∈ rules.openers root) : p ≠ [] := by
  rintro rfl
  simp [openers] at member

theorem scopeAt?_ofNode {rules : Rules} {root : Site} (name : Option String) {p : Place}
    (member : p ∈ rules.openers root) :
    ∃ s : Scope α, rules.scopeAt? root (Scope.ofNode rules root name) p = some s ∧
      rules.Opened root p s := by
  have below := ne_nil_of_mem_openers member
  obtain ⟨inner, walk, opened⟩ := opened_ofNode (α := α) rules root name
  rw [scopeAt?, walk, List.zip_cons_cons, List.lookup_cons, beq_eq_false_iff_ne.2 below]
  exact lookup_zip_of_forall₂ opened member

/-- The guards of the decisions inside two nodes judge alike, wherever the nodes stand. -/
def GuardedAlike (rules : Rules) (s s' : Site) : Prop :=
  ∀ q ∈ s.node.places, rules.decisions.contains (s.below q).node.kind →
    ∀ guard, rules.guards.get? (s.below q).node.kind = some guard →
      guard (s.below q) = guard (s'.below q)

theorem below_node_congr {s s' : Site} (same : s.node = s'.node) (q : Place) :
    (s.below q).node = (s'.below q).node := by
  induction q generalizing s s' with
  | nil => exact same
  | cons i q ih =>
    apply ih
    rw [Site.child, Site.child, Site.children, Site.children, same, List.getElem?_map, List.getElem?_map]
    cases s'.node.children[i]? with
    | none => exact same
    | some n => rfl

theorem GuardedAlike.isDecision_eq {rules : Rules} {s s' : Site} (alike : rules.GuardedAlike s s')
    (same : s.node = s'.node) {q : Place} (member : q ∈ s.node.places) :
    rules.isDecision (s.below q) = rules.isDecision (s'.below q) := by
  rw [isDecision, isDecision, ← below_node_congr same q]
  cases decides : rules.decisions.contains (s.below q).node.kind with
  | false => rfl
  | true =>
    cases guarded : rules.guards.get? (s.below q).node.kind with
    | none => rfl
    | some guard => exact alike q member decides guard guarded

end Rules

section Alike

variable {rules : Rules} {s s' : Site}

mutual

theorem at_congr (n : Node) {above above' : List Node} {p : Place}
    (lies : s.below p = ⟨n, above⟩) (lies' : s'.below p = ⟨n, above'⟩)
    (alike : ∀ q ∈ n.placesAt p, rules.isDecision (s.below q) = rules.isDecision (s'.below q)) :
    rules.decisionsAt above n = rules.decisionsAt above' n ∧
      Scope.openedAt (α := α) rules above n = Scope.openedAt rules above' n := by
  obtain ⟨label, children⟩ := n
  rw [Node.placesAt, List.forall_mem_cons, lies, lies'] at alike
  obtain ⟨own, alike⟩ := alike
  obtain ⟨decisions, scopes⟩ := in_congr children (Site.liesFrom_children lies)
    (Site.liesFrom_children lies') alike
  have weight : rules.weigh ⟨.node label children, above⟩ = rules.weigh ⟨.node label children, above'⟩ := by
    rw [Rules.weigh, Rules.weigh, own]
  rw [Rules.decisionsAt, Rules.decisionsAt, Scope.openedAt, Scope.openedAt, weight, decisions, scopes]
  exact ⟨rfl, rfl⟩

theorem in_congr (nodes : List Node) {above above' : List Node} {p : Place} {i : Nat}
    (lies : s.LiesFrom p i above nodes) (lies' : s'.LiesFrom p i above' nodes)
    (alike : ∀ q ∈ Node.placesFrom p i nodes,
      rules.isDecision (s.below q) = rules.isDecision (s'.below q)) :
    rules.decisionsIn above nodes = rules.decisionsIn above' nodes ∧
      Scope.openedIn (α := α) rules above nodes = Scope.openedIn rules above' nodes := by
  cases nodes with
  | nil => exact ⟨rfl, rfl⟩
  | cons n siblings =>
    rw [Node.placesFrom, List.forall_mem_append] at alike
    obtain ⟨decisions, scopes⟩ := at_congr n lies.head lies'.head alike.1
    obtain ⟨others, behind⟩ := in_congr siblings lies.tail lies'.tail alike.2
    rw [Rules.decisionsIn, Rules.decisionsIn, Scope.openedIn, Scope.openedIn, decisions, scopes, others,
      behind]
    exact ⟨rfl, rfl⟩

end

theorem Rules.GuardedAlike.ofOpener_eq (alike : rules.GuardedAlike s s') (same : s.node = s'.node) :
    Scope.ofOpener (α := α) rules s = Scope.ofOpener rules s' := by
  obtain ⟨n, above⟩ := s
  obtain ⟨n', above'⟩ := s'
  obtain rfl : n = n' := same
  have decisions := fun q member => alike.isDecision_eq rfl (q := q) member
  rw [Rules.places_eq, List.forall_mem_cons] at decisions
  obtain ⟨kept, opened⟩ := in_congr (α := α) n.children (Site.liesFrom_root_children ⟨n, above⟩)
    (Site.liesFrom_root_children ⟨n, above'⟩) decisions.2
  have weight : rules.weigh ⟨n, above⟩ = rules.weigh ⟨n, above'⟩ := by
    rw [Rules.weigh, Rules.weigh]
    exact congrArg (fun decides : Bool => if decides then 1 else 0) decisions.1
  rw [Scope.ofOpener, Scope.ofOpener, Scope.ofNode, Scope.ofNode, weight, kept, opened]

end Alike

/-- In the scope tree of a whole tree, the node at a place that opens a scope has the scope that it has as a
unit by itself, its ancestors kept, under the kind and the name that it opens a scope with. The same
node in two trees has the same scope as long as the guards of the decisions inside judge alike. -/
theorem ofSite_in_place (rules : Rules) :
    (∀ (root : Site) (name : Option String), ∃ t : Scope α,
      Scope.ofSite rules root name = .ok t ∧ t.walk.length = (rules.openers root).length + 1 ∧
        ∀ p ∈ root.node.places, p ≠ [] → ∀ kind, rules.scopeKind (root.below p).node = some kind →
          ∀ name', ∃ alone : Scope α, Scope.ofSite rules (root.below p) name' = .ok alone ∧
            rules.scopeAt? root t p
              = some { alone with kind, name := Walk.labelOf kind (root.below p).node }) ∧
      ∀ (root root' : Site) (name name' : Option String) (t t' : Scope α),
        Scope.ofSite rules root name = .ok t → Scope.ofSite rules root' name' = .ok t' →
          ∀ p ∈ rules.openers root, ∀ p' ∈ rules.openers root',
            (root.below p).node = (root'.below p').node →
              rules.GuardedAlike (root.below p) (root'.below p') →
                rules.scopeAt? root t p = rules.scopeAt? root' t' p' := by
  constructor
  · intro root name
    refine ⟨_, Scope.ofSite_eq_ofNode rules root name, ?_, ?_⟩
    · obtain ⟨inner, walk, opened⟩ := rules.opened_ofNode (α := α) root name
      rw [walk, List.length_cons, opened.length_eq]
    · intro p member below kind opener name'
      obtain ⟨s, found, opened⟩ := Rules.scopeAt?_ofNode (α := α) name (Rules.mem_openers member below opener)
      refine ⟨_, Scope.ofSite_eq_ofNode rules (root.below p) name', ?_⟩
      rw [found, ← opened, Scope.ofOpener, opener, Scope.ofNode_name rules (root.below p) none name']
      rfl
  · intro root root' name name' t t' built built' p member p' member' same alike
    rw [Scope.ofSite_eq_ofNode] at built built'
    cases built
    cases built'
    obtain ⟨s, found, opened⟩ := Rules.scopeAt?_ofNode (α := α) name member
    obtain ⟨s', found', opened'⟩ := Rules.scopeAt?_ofNode (α := α) name' member'
    rw [found, found', ← opened, ← opened', alike.ofOpener_eq same]

theorem ofSite_in_place_of_method :
    let method := Node.node { kind := "function_definition", endRow := 3 }
      [.node { kind := "for_statement" }
        [.node { kind := "for", named := false } [],
          .node { kind := "else_clause" } [.node { kind := "else", named := false } []]]]
    let file := Site.root (.node { kind := "module" }
      [.node { kind := "class_definition" } [method], .node { kind := "if", named := false } []])
    let python := Language.python.rules
    ∃ t alone : Scope Float, Scope.ofSite python file (some "a.py") = .ok t ∧
      Scope.ofSite python (file.below [0, 0]) none = .ok alone ∧
      python.scopeAt? file t [0, 0] = some { alone with kind := .function, name := none } ∧
      ∃ other : Scope Float,
        Scope.ofSite python (.root (.node { kind := "module" } [method])) none = .ok other ∧
        python.scopeAt? file t [0, 0]
          = python.scopeAt? (.root (.node { kind := "module" } [method])) other [0] := by
  intro method file python
  obtain ⟨t, built, -, inside⟩ := (ofSite_in_place (α := Float) python).1 file (some "a.py")
  obtain ⟨alone, itself, found⟩ := inside [0, 0] (by decide) (by decide) .function (by decide) none
  obtain ⟨other, built', -⟩ :=
    (ofSite_in_place (α := Float) python).1 (.root (.node { kind := "module" } [method])) none
  refine ⟨t, alone, built, itself, found, other, built', ?_⟩
  apply (ofSite_in_place python).2 _ _ _ _ t other built built' [0, 0] (by decide) [0] (by decide) rfl
  intro q member decides guard guarded
  have : q ∈ [[], [0], [0, 0], [0, 1], [0, 1, 0]] := member
  simp only [List.mem_cons, List.not_mem_nil, or_false] at this
  rcases this with rfl | rfl | rfl | rfl | rfl
  · cases guarded
  · cases guarded
  · cases guarded
  · cases guarded
  · cases guarded
    decide

end ScopeComplexity
