import Mathlib.Data.List.Nodup
import ScopeComplexity.Proofs.Scope.Recursion
import ScopeComplexity.Proofs.Statistics.Exact
import ScopeComplexity.Proofs.Syntax.Place

namespace ScopeComplexity

open Syntax

/-- A tree of places. -/
inductive Nest where
  | nest (place : Place) (inner : List Nest)

namespace Nest

def place : Nest → Place
  | .nest p _ => p

mutual

def links : Nest → List (Place × Place)
  | .nest p inner => linksIn p inner

def linksIn (outer : Place) : List Nest → List (Place × Place)
  | [] => []
  | n :: others => (outer, n.place) :: (n.links ++ linksIn outer others)

end

end Nest

namespace Rules

def opensAt (rules : Rules) (root : Site) (p : Place) : Bool :=
  p.isEmpty || rules.opens (root.below p).node

def openers (rules : Rules) (root : Site) : List Place :=
  root.node.places.filter fun p => !p.isEmpty && rules.opens (root.below p).node

/-- The nearest place that opens a scope, at `p` or above it. -/
def nearest (rules : Rules) (root : Site) (p : Place) : Place :=
  (p.inits.filter (rules.opensAt root)).getLastD []

/-- How many decisions have `p` as the nearest place that opens a scope. -/
def decisionsOf (rules : Rules) (root : Site) (p : Place) : Nat :=
  root.node.places.countP fun q => rules.isDecision (root.below q) && rules.nearest root q == p

def heading (rules : Rules) (root : Site) (name : Option String) (p : Place) :
    ScopeKind × Option String :=
  if p.isEmpty then (.unit, name)
  else
    match rules.scopeKind (root.below p).node with
    | none => (.unknown, none)
    | some kind => (kind, if kind = .closure then none else (root.below p).node.scopeName)

mutual

def nestsAt (rules : Rules) (p : Place) : Node → List Nest
  | .node label children =>
    if rules.opens (.node label children) then [.nest p (nestsFrom rules p 0 children)]
    else nestsFrom rules p 0 children

def nestsFrom (rules : Rules) (p : Place) (i : Nat) : List Node → List Nest
  | [] => []
  | n :: siblings => nestsAt rules (p ++ [i]) n ++ nestsFrom rules p (i + 1) siblings

end

def nesting (rules : Rules) (root : Site) : Nest :=
  .nest [] (nestsFrom rules [] 0 root.node.children)

end Rules

namespace Nest

mutual

def scope (rules : Rules) (root : Site) (name : Option String) : Nest → Scope Rat
  | .nest p inner =>
    { name := (rules.heading root name p).2
      kind := (rules.heading root name p).1
      startLine := (root.below p).node.label.startRow + 1
      endLine := (root.below p).node.label.endRow + 1
      cyclomatic := 1 + rules.decisionsOf root p
      metrics := .over (1 + rules.decisionsOf root p) ((scopes rules root name inner).map (·.metrics))
      scopes := scopes rules root name inner }

def scopes (rules : Rules) (root : Site) (name : Option String) : List Nest → List (Scope Rat)
  | [] => []
  | n :: others => n.scope rules root name :: scopes rules root name others

end

end Nest

namespace Rules

theorem opensAt_concat (rules : Rules) (root : Site) (p : Place) (i : Nat) :
    rules.opensAt root (p ++ [i]) = rules.opens (root.below (p ++ [i])).node := by
  simp [opensAt]

@[simp] theorem nearest_nil (rules : Rules) (root : Site) : rules.nearest root [] = [] := rfl

theorem nearest_concat (rules : Rules) (root : Site) (p : Place) (i : Nat) :
    rules.nearest root (p ++ [i])
      = if rules.opens (root.below (p ++ [i])).node then p ++ [i] else rules.nearest root p := by
  have inits : (p ++ [i]).inits = p.inits ++ [p ++ [i]] := by simp [List.inits_append]
  rw [nearest, inits, List.filter_append, List.filter_singleton, opensAt_concat]
  cases rules.opens (root.below (p ++ [i])).node with
  | true => exact List.getLastD_concat
  | false => rw [cond_false, List.append_nil]; rfl

def kept (rules : Rules) (s : Site) : Nat :=
  rules.weigh s + rules.decisionsIn (s.node :: s.above) s.node.children

def countsFor (rules : Rules) (root : Site) (o p : Place) : Bool :=
  rules.isDecision (root.below p) && rules.nearest root p == o

theorem countP_countsFor_singleton (rules : Rules) (root : Site) (o p : Place) :
    [p].countP (rules.countsFor root o)
      = if rules.nearest root p = o then rules.weigh (root.below p) else 0 := by
  by_cases near : rules.nearest root p = o <;> simp [countsFor, weigh, near, List.countP_singleton]

mutual

/-- The decisions at and below a node that count for one place are those of the scope around, if it
is that place, and those kept by the node that opens it. -/
theorem countP_placesAt (rules : Rules) (root : Site) (o : Place) (n : Node) {above : List Node}
    {p : Place} {i : Nat} (lies : root.below (p ++ [i]) = ⟨n, above⟩) :
    (n.placesAt (p ++ [i])).countP (rules.countsFor root o)
      = (if rules.nearest root p = o then rules.decisionsAt above n else 0)
        + ((n.placesAt (p ++ [i])).filter (rules.opensAt root)).count o
          * rules.kept (root.below o) := by
  obtain ⟨label, children⟩ := n
  have inner := countP_placesFrom rules root o children (Site.liesFrom_children lies)
  rw [nearest_concat, lies] at inner
  rw [Node.placesAt, ← List.singleton_append, List.countP_append, countP_countsFor_singleton,
    List.filter_append, List.count_append, inner, nearest_concat, lies, List.filter_singleton,
    opensAt_concat, lies, decisionsAt]
  cases rules.opens (.node label children) with
  | false =>
    simp
    split <;> omega
  | true =>
    by_cases here : p ++ [i] = o
    · subst here
      have keeps : rules.kept (root.below (p ++ [i]))
          = rules.weigh ⟨.node label children, above⟩
            + rules.decisionsIn (.node label children :: above) children := by
        rw [kept, lies]
        rfl
      simp [keeps, Nat.add_mul]
      omega
    · simp [here]

theorem countP_placesFrom (rules : Rules) (root : Site) (o : Place) (nodes : List Node)
    {above : List Node} {p : Place} {i : Nat} (lies : root.LiesFrom p i above nodes) :
    (Node.placesFrom p i nodes).countP (rules.countsFor root o)
      = (if rules.nearest root p = o then rules.decisionsIn above nodes else 0)
        + ((Node.placesFrom p i nodes).filter (rules.opensAt root)).count o
          * rules.kept (root.below o) := by
  cases nodes with
  | nil => simp [Node.placesFrom, decisionsIn]
  | cons n siblings =>
    rw [Node.placesFrom, List.countP_append, countP_placesAt rules root o n lies.head,
      countP_placesFrom rules root o siblings lies.tail, List.filter_append, List.count_append,
      decisionsIn]
    rw [Nat.add_mul]
    split <;> omega

end

theorem places_eq (root : Site) :
    root.node.places = [] :: Node.placesFrom [] 0 root.node.children := by
  rw [Node.places]
  cases root.node with
  | node label children => rfl

theorem opensAt_of_mem_placesFrom {nodes : List Node} {p q : Place} {i : Nat}
    (h : q ∈ Node.placesFrom p i nodes) (rules : Rules) (root : Site) :
    rules.opensAt root q = (!q.isEmpty && rules.opens (root.below q).node) := by
  obtain ⟨j, -, hj⟩ := Node.prefix_of_mem_placesFrom nodes h
  cases q with
  | nil => simp at hj
  | cons k q => simp [opensAt]

theorem openers_eq (rules : Rules) (root : Site) :
    rules.openers root
      = (Node.placesFrom [] 0 root.node.children).filter (rules.opensAt root) := by
  rw [openers, places_eq, List.filter_cons_of_neg (by simp)]
  apply List.filter_congr
  intro q h
  exact (opensAt_of_mem_placesFrom h rules root).symm

theorem decisionsOf_nil (rules : Rules) (root : Site) :
    rules.decisionsOf root [] = rules.kept root := by
  have below := countP_placesFrom rules root [] root.node.children
    (Site.liesFrom_root_children root)
  have absent : ((Node.placesFrom [] 0 root.node.children).filter (rules.opensAt root)).count [] = 0 := by
    apply List.count_eq_zero.2
    intro h
    obtain ⟨j, -, hj⟩ := Node.prefix_of_mem_placesFrom _ (List.mem_filter.1 h).1
    simp at hj
  rw [decisionsOf, places_eq]
  change ([[]] ++ Node.placesFrom [] 0 root.node.children).countP (rules.countsFor root []) = _
  rw [List.countP_append, countP_countsFor_singleton, below, absent]
  simp [kept]

theorem nodup_openers (rules : Rules) (root : Site) : (rules.openers root).Nodup :=
  (Node.nodup_places root.node).filter _

theorem decisionsOf_of_mem_openers {rules : Rules} {root : Site} {o : Place}
    (h : o ∈ rules.openers root) : rules.decisionsOf root o = rules.kept (root.below o) := by
  have below := countP_placesFrom rules root o root.node.children
    (Site.liesFrom_root_children root)
  have elsewhere : ([] : Place) ≠ o := by
    rintro rfl
    simp [openers] at h
  rw [← openers_eq, List.count_eq_one_of_mem (nodup_openers rules root) h] at below
  rw [decisionsOf, places_eq]
  change ([[]] ++ Node.placesFrom [] 0 root.node.children).countP (rules.countsFor root o) = _
  rw [List.countP_append, countP_countsFor_singleton, below]
  simp [elsewhere]

end Rules

namespace Nest

theorem linksIn_append (outer : Place) (ns ms : List Nest) :
    linksIn outer (ns ++ ms) = linksIn outer ns ++ linksIn outer ms := by
  induction ns with
  | nil => rfl
  | cons n ns ih => simp [linksIn, ih]

theorem scopes_append (rules : Rules) (root : Site) (name : Option String) (ns ms : List Nest) :
    scopes rules root name (ns ++ ms) = scopes rules root name ns ++ scopes rules root name ms := by
  induction ns with
  | nil => rfl
  | cons n ns ih => simp [scopes, ih]

end Nest

namespace Rules

def withOuter (rules : Rules) (root : Site) (places : List Place) : List (Place × Place) :=
  places.map fun p => (rules.nearest root p.dropLast, p)

mutual

theorem linksIn_nestsAt (rules : Rules) (root : Site) (n : Node) {above : List Node} {p : Place}
    {i : Nat} (lies : root.below (p ++ [i]) = ⟨n, above⟩) :
    Nest.linksIn (rules.nearest root p) (nestsAt rules (p ++ [i]) n)
      = rules.withOuter root ((n.placesAt (p ++ [i])).filter (rules.opensAt root)) := by
  obtain ⟨label, children⟩ := n
  have inner := linksIn_nestsFrom rules root children (Site.liesFrom_children lies)
  rw [nearest_concat, lies] at inner
  rw [Node.placesAt, List.filter_cons, opensAt_concat, lies, nestsAt]
  cases opens : rules.opens (.node label children) with
  | false => simpa [opens] using inner
  | true =>
    simp only [opens, if_true] at inner ⊢
    simp [Nest.linksIn, Nest.links, Nest.place, withOuter, inner]

theorem linksIn_nestsFrom (rules : Rules) (root : Site) (nodes : List Node) {above : List Node}
    {p : Place} {i : Nat} (lies : root.LiesFrom p i above nodes) :
    Nest.linksIn (rules.nearest root p) (nestsFrom rules p i nodes)
      = rules.withOuter root ((Node.placesFrom p i nodes).filter (rules.opensAt root)) := by
  cases nodes with
  | nil => rfl
  | cons n siblings =>
    rw [nestsFrom, Nest.linksIn_append, linksIn_nestsAt rules root n lies.head,
      linksIn_nestsFrom rules root siblings lies.tail, Node.placesFrom, List.filter_append]
    exact List.map_append.symm

end

theorem links_nesting (rules : Rules) (root : Site) :
    (rules.nesting root).links = rules.withOuter root (rules.openers root) := by
  rw [openers_eq, ← linksIn_nestsFrom rules root root.node.children
    (Site.liesFrom_root_children root)]
  rfl

end Rules

namespace Rules

theorem scope_nest {rules : Rules} {root : Site} {name : Option String} {p : Place}
    {inner : List Nest} {s : Site} (lies : root.below p = s)
    (decisions : rules.decisionsOf root p = rules.kept s) :
    (Nest.nest p inner).scope rules root name
      = Scope.assemble (rules.heading root name p).1 (rules.heading root name p).2 s.node
          (rules.kept s) (Nest.scopes rules root name inner) := by
  rw [Scope.assemble_eq, Nest.scope, lies, decisions, Measure.complexity_eq]
  rfl

mutual

theorem scopes_nestsAt (rules : Rules) (root : Site) (name : Option String) (n : Node)
    {above : List Node} {p : Place} {i : Nat} (lies : root.below (p ++ [i]) = ⟨n, above⟩)
    (within : n.placesAt (p ++ [i]) ⊆ Node.placesFrom [] 0 root.node.children) :
    Nest.scopes rules root name (nestsAt rules (p ++ [i]) n) = Scope.openedAt rules above n := by
  obtain ⟨label, children⟩ := n
  have inner := scopes_nestsFrom rules root name children (Site.liesFrom_children lies)
    (List.Subset.trans (List.subset_cons_self _ _) within)
  have heading : rules.heading root name (p ++ [i])
      = match rules.scopeKind (.node label children) with
        | none => (.unknown, none)
        | some kind => (kind, Walk.labelOf kind (.node label children)) := by
    rw [heading, lies, if_neg (by simp)]
    rfl
  rw [nestsAt, Scope.openedAt]
  cases opener : rules.scopeKind (.node label children) with
  | none => simpa [opens, opener] using inner
  | some kind =>
    have member : p ++ [i] ∈ rules.openers root := by
      rw [openers_eq]
      refine List.mem_filter.2 ⟨within List.mem_cons_self, ?_⟩
      rw [opensAt_concat, lies, opens, opener]
      rfl
    have decisions := decisionsOf_of_mem_openers member
    rw [lies] at decisions
    rw [opens, opener, Option.isSome_some, if_pos rfl, Nest.scopes, scope_nest lies decisions, heading,
      opener, inner]
    rfl

theorem scopes_nestsFrom (rules : Rules) (root : Site) (name : Option String) (nodes : List Node)
    {above : List Node} {p : Place} {i : Nat} (lies : root.LiesFrom p i above nodes)
    (within : Node.placesFrom p i nodes ⊆ Node.placesFrom [] 0 root.node.children) :
    Nest.scopes rules root name (nestsFrom rules p i nodes) = Scope.openedIn rules above nodes := by
  cases nodes with
  | nil => rfl
  | cons n siblings =>
    rw [Node.placesFrom, List.append_subset] at within
    rw [nestsFrom, Nest.scopes_append, scopes_nestsAt rules root name n lies.head within.1,
      scopes_nestsFrom rules root name siblings lies.tail within.2, Scope.openedIn]

end

theorem scope_nesting (rules : Rules) (root : Site) (name : Option String) :
    (rules.nesting root).scope rules root name = Scope.ofNode rules root name := by
  have inner := scopes_nestsFrom rules root name root.node.children
    (Site.liesFrom_root_children root) (List.Subset.refl _)
  rw [nesting, scope_nest (s := root) rfl (decisionsOf_nil rules root), inner]
  rfl

end Rules

/-- The walk with its stacks gives the scope tree that is read off the places of the nodes. Each
opening place has exactly one scope, the scopes stand in document order, and each lies directly in
that of the nearest opening place strictly above its own. -/
theorem ofSite_eq_nesting (rules : Rules) (root : Site) (name : Option String) :
    Scope.ofSite rules root name = .ok ((rules.nesting root).scope rules root name) ∧
      (rules.nesting root).place = [] ∧
      (rules.nesting root).links
        = (rules.openers root).map (fun p => (rules.nearest root p.dropLast, p)) ∧
      (rules.openers root).Nodup := by
  refine ⟨?_, rfl, Rules.links_nesting rules root, Rules.nodup_openers rules root⟩
  rw [Rules.scope_nesting, Scope.ofSite_eq_ofNode]

end ScopeComplexity
