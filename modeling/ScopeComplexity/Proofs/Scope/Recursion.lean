import ScopeComplexity.Proofs.Rules.Kinds
import ScopeComplexity.Proofs.Scope.Opening
import ScopeComplexity.Scope.Walk

/-!
Scope trees by recursion over syntax trees. A node that opens a scope gives it to the scope around and keeps its
decisions and those below it; any other node hands on its own decision and what its children give.

The walk with its two stacks gives the same tree (`Scope.ofSite_eq_ofNode`).
-/

namespace ScopeComplexity

open Syntax

variable {α : Type} [Measure α]

def Rules.opens (rules : Rules) (n : Node) : Bool := (rules.scopeKind n).isSome

def Rules.weigh (rules : Rules) (s : Site) : Nat := if rules.isDecision s then 1 else 0

theorem Rules.ByKind.weigh_congr {rules : Rules} (h : rules.ByKind) {s s' : Site} (same : s.kinds = s'.kinds) :
    rules.weigh s = rules.weigh s' := by
  rw [weigh, weigh, h.isDecision_congr same]

def Rules.deepens (rules : Rules) (n : Node) : Nat := if rules.opens n then 1 else 0

theorem Rules.deepens_of_some {rules : Rules} {n : Node} {kind : ScopeKind}
    (opener : rules.scopeKind n = some kind) : rules.deepens n = 1 := by
  simp [deepens, opens, opener]

theorem Rules.deepens_of_none {rules : Rules} {n : Node} (plain : rules.scopeKind n = none) :
    rules.deepens n = 0 := by
  simp [deepens, opens, plain]

mutual

/-- The decisions at a node and below it that count for the scope around the node. -/
def Rules.decisionsAt (rules : Rules) (above : List Node) : Node → Nat
  | .node label children =>
    if rules.opens (.node label children) then 0
    else
      rules.weigh ⟨.node label children, above⟩
        + rules.decisionsIn (.node label children :: above) children

def Rules.decisionsIn (rules : Rules) (above : List Node) : List Node → Nat
  | [] => 0
  | n :: siblings => rules.decisionsAt above n + rules.decisionsIn above siblings

end

namespace Scope

def assemble (kind : ScopeKind) (name : Option String) (n : Node) (decisions : Nat)
    (inner : List (Scope α)) : Scope α :=
  ((Opening.ofNode n kind name).grown decisions inner).finished

mutual

/-- The scopes at a node and below it that lie directly in the scope around the node. -/
def openedAt (rules : Rules) (above : List Node) : Node → List (Scope α)
  | .node label children =>
    match rules.scopeKind (.node label children) with
    | none => openedIn rules (.node label children :: above) children
    | some kind =>
      [assemble kind (Walk.labelOf kind (.node label children)) (.node label children)
        (rules.weigh ⟨.node label children, above⟩
          + rules.decisionsIn (.node label children :: above) children)
        (openedIn rules (.node label children :: above) children)]

def openedIn (rules : Rules) (above : List Node) : List Node → List (Scope α)
  | [] => []
  | n :: siblings => openedAt rules above n ++ openedIn rules above siblings

end

theorem assemble_eq (kind : ScopeKind) (name : Option String) (n : Node) (decisions : Nat)
    (inner : List (Scope α)) :
    assemble kind name n decisions inner =
      { name, kind, startLine := n.lines.1, endLine := n.lines.2
        cyclomatic := Measure.complexity decisions
        metrics := .over (Measure.complexity decisions) (inner.map (·.metrics))
        scopes := inner } := by
  simp only [assemble, Opening.finished, Opening.grown, Opening.ofNode,
    Tally.summary_gathered_start, Tally.cyclomatic_gathered_start, List.append_nil, List.reverse_reverse]

def ofNode (rules : Rules) (root : Site) (name : Option String) : Scope α :=
  assemble .unit name root.node
    (rules.weigh root + rules.decisionsIn (root.node :: root.above) root.node.children)
    (openedIn rules (root.node :: root.above) root.node.children)

end Scope

namespace Walk

structure Sound (w : Walk α) : Prop where
  depth : w.opened.length = w.depth
  isOpen : ∀ o ∈ w.opened, o.IsOpen

def settled (level : Nat) (w : Walk α) : Walk α :=
  ⟨min w.depth level, Opening.folded (w.depth - level) w.opened⟩

def stacked (rules : Rules) (s : Site) (opened : List (Opening α)) : List (Opening α) :=
  match rules.scopeKind s.node, opened with
  | some kind, opened =>
    (Opening.ofNode s.node kind (labelOf kind s.node)).grown (rules.weigh s) [] :: opened
  | none, inner :: rest => inner.grown (rules.weigh s) [] :: rest
  | none, [] => []

theorem stacked_of_scopeKind_some {rules : Rules} {s : Site} {kind : ScopeKind}
    (opener : rules.scopeKind s.node = some kind) (opened : List (Opening α)) :
    stacked rules s opened
      = (Opening.ofNode s.node kind (labelOf kind s.node)).grown (rules.weigh s) [] :: opened := by
  simp [stacked, opener]

theorem stacked_of_scopeKind_none {rules : Rules} {s : Site} (plain : rules.scopeKind s.node = none)
    (inner : Opening α) (rest : List (Opening α)) :
    stacked rules s (inner :: rest) = inner.grown (rules.weigh s) [] :: rest := by
  simp [stacked, plain]

def complete (rules : Rules) (pending : List (Nat × Site)) (w : Walk α) :
    Except StateError (Scope α) :=
  w.run rules pending >>= finish

theorem classify_of_isOpen (rules : Rules) (s : Site) {inner : Opening α} (h : inner.IsOpen)
    (rest : List (Opening α)) :
    classify rules s (inner :: rest) = .ok (inner.grown (rules.weigh s) [] :: rest) := by
  rw [classify, Rules.weigh]
  split
  · rw [Opening.onInnermost, Opening.increment_of_isOpen h]
    rfl
  · rw [Opening.grown_zero_nil]

def atRoot (rules : Rules) (root : Site) (name : Option String) : Walk α :=
  ⟨1, [(Opening.ofNode root.node .unit name).grown (rules.weigh root) []]⟩

theorem start_eq (rules : Rules) (root : Site) (name : Option String) :
    Walk.start rules root name = .ok (atRoot rules root name : Walk α) := by
  rw [start, classify_of_isOpen rules root (Opening.isOpen_ofNode _ _ _)]
  rfl

theorem leave_of_sound {w : Walk α} (h : w.Sound) {level : Nat} (positive : 0 < level)
    (inside : level ≤ w.depth) : w.leave level = .ok (w.settled level) := by
  have count : w.depth - level < w.opened.length := by rw [h.depth]; omega
  rw [leave, Opening.close_eq_folded h.isOpen count]
  rfl

theorem Sound.settled {w : Walk α} (h : w.Sound) {level : Nat} (positive : 0 < level)
    (inside : level ≤ w.depth) : (w.settled level).Sound where
  depth := by
    have count : w.depth - level < w.opened.length := by rw [h.depth]; omega
    simp only [Walk.settled, Opening.length_folded count, h.depth]
    omega
  isOpen := Opening.isOpen_folded h.isOpen _

theorem settled_settled {w : Walk α} (h : w.Sound) {outer inner : Nat} (positive : 0 < outer)
    (le : outer ≤ inner) (inside : inner ≤ w.depth) :
    (w.settled inner).settled outer = w.settled outer := by
  have count : (w.depth - inner) + (inner - outer) < w.opened.length := by rw [h.depth]; omega
  have total : w.depth - outer = (w.depth - inner) + (inner - outer) := by omega
  simp only [settled, Nat.min_eq_right inside, total, Opening.folded_add count]
  congr 1
  omega

theorem leave_settled {w : Walk α} (h : w.Sound) {outer inner : Nat} (positive : 0 < outer)
    (le : outer ≤ inner) (inside : inner ≤ w.depth) : (w.settled inner).leave outer = w.leave outer := by
  have depth : (w.settled inner).depth = inner := Nat.min_eq_right inside
  have innerPositive := Nat.lt_of_lt_of_le positive le
  rw [leave_of_sound h positive (Nat.le_trans le inside),
    leave_of_sound (h.settled innerPositive inside) positive (depth.symm ▸ le),
    settled_settled h positive le inside]

theorem finish_settled {w : Walk α} (h : w.Sound) {level : Nat} (positive : 0 < level)
    (inside : level ≤ w.depth) : (w.settled level).finish = w.finish := by
  have settledSound := h.settled positive inside
  have depth : (w.settled level).opened.length = level := by
    rw [settledSound.depth, settled, Nat.min_eq_right inside]
  have count : w.opened.length - 1 < w.opened.length := by rw [h.depth]; omega
  have total : w.opened.length - 1 = (w.depth - level) + (level - 1) := by rw [h.depth]; omega
  rw [finish, finish, Opening.close_eq_folded settledSound.isOpen (by omega),
    Opening.close_eq_folded h.isOpen count, depth, total, Opening.folded_add (by omega)]
  rfl

theorem finish_unit {unit : Opening α} (h : unit.IsOpen) :
    (⟨1, [unit]⟩ : Walk α).finish = .ok unit.finished := by
  simp only [finish, List.length_singleton, Nat.sub_self, Opening.close, Opening.Closing.done, bind,
    Except.bind, Opening.finish_of_isOpen h]
  rfl

theorem complete_settled (rules : Rules) {pending : List (Nat × Site)} {w : Walk α} (h : w.Sound)
    {level : Nat} (inside : level ≤ w.depth) (positive : 0 < level)
    (waiting : ∀ p ∈ pending, 0 < p.1 ∧ p.1 ≤ level) :
    complete rules pending (w.settled level) = complete rules pending w := by
  cases pending with
  | nil =>
    rw [complete, complete, run, run]
    exact finish_settled h positive inside
  | cons p rest =>
    obtain ⟨next, s⟩ := p
    obtain ⟨nextPositive, le⟩ := waiting _ List.mem_cons_self
    rw [complete, complete, run, run, enter, enter, leave_settled h nextPositive le inside]

omit [Measure α] in
theorem sound_cons {level : Nat} {o : Opening α} {rest : List (Opening α)} (ho : o.IsOpen)
    (hrest : ∀ o ∈ rest, o.IsOpen) (depth : rest.length + 1 = level) :
    (⟨level, o :: rest⟩ : Walk α).Sound where
  depth := depth
  isOpen := List.forall_mem_cons.2 ⟨ho, hrest⟩

omit [Measure α] in
theorem Sound.exists_cons {w : Walk α} (h : w.Sound) (positive : 0 < w.depth) :
    ∃ inner rest, w.opened = inner :: rest :=
  List.exists_cons_of_length_pos (h.depth ▸ positive)

/-- What entering a node comes to: the scopes that do not enclose it are closed, then it counts for the
innermost scope, which is its own if it opens one. -/
theorem enter_of_sound {w : Walk α} (h : w.Sound) {level : Nat} (positive : 0 < level)
    (inside : level ≤ w.depth) (rules : Rules) (s : Site) :
    w.enter rules level s = .ok (level + rules.deepens s.node,
      ⟨level + rules.deepens s.node, stacked rules s (w.settled level).opened⟩) := by
  have settledSound := h.settled positive inside
  have settledDepth : (w.settled level).depth = level := Nat.min_eq_right inside
  rw [enter, leave_of_sound h positive inside]
  cases opens : rules.scopeKind s.node with
  | none =>
    obtain ⟨inner, rest, opened⟩ := settledSound.exists_cons (settledDepth.symm ▸ positive)
    have isOpen : inner.IsOpen := settledSound.isOpen inner (opened ▸ List.mem_cons_self)
    simp only [bind, Except.bind, opened, classify_of_isOpen rules s isOpen, settledDepth,
      Rules.deepens_of_none opens, stacked_of_scopeKind_none opens]
    rfl
  | some kind =>
    have isOpen := Opening.isOpen_ofNode (α := α) s.node kind (labelOf kind s.node)
    simp only [bind, Except.bind, classify_of_isOpen rules s isOpen, Rules.deepens_of_some opens,
      stacked_of_scopeKind_some opens]
    rfl

theorem enter_level {level : Nat} {opened : List (Opening α)}
    (h : (⟨level, opened⟩ : Walk α).Sound) (positive : 0 < level) (rules : Rules) (s : Site) :
    (⟨level, opened⟩ : Walk α).enter rules level s = .ok (level + rules.deepens s.node,
      ⟨level + rules.deepens s.node, stacked rules s opened⟩) := by
  rw [enter_of_sound h positive (Nat.le_refl level), settled]
  simp

theorem enter_of_scopeKind_none {rules : Rules} {s : Site} (plain : rules.scopeKind s.node = none)
    {level : Nat} {o : Opening α} {rest : List (Opening α)}
    (sound : (⟨level, o :: rest⟩ : Walk α).Sound) (positive : 0 < level) :
    (⟨level, o :: rest⟩ : Walk α).enter rules level s
      = .ok (level, ⟨level, o.grown (rules.weigh s) [] :: rest⟩) := by
  rw [enter_level sound positive, Rules.deepens_of_none plain, stacked_of_scopeKind_none plain, Nat.add_zero]

theorem enter_of_scopeKind_some {rules : Rules} {s : Site} {kind : ScopeKind}
    (opener : rules.scopeKind s.node = some kind) {level : Nat} {opened : List (Opening α)}
    (sound : (⟨level, opened⟩ : Walk α).Sound) (positive : 0 < level) :
    (⟨level, opened⟩ : Walk α).enter rules level s
      = .ok (level + 1, ⟨level + 1,
          (Opening.ofNode s.node kind (labelOf kind s.node)).grown (rules.weigh s) [] :: opened⟩) := by
  rw [enter_level sound positive, Rules.deepens_of_some opener, stacked_of_scopeKind_some opener]

def forestAt (level : Nat) (above : List Node) (nodes : List Node) : List (Nat × Site) :=
  nodes.map fun n => (level, ⟨n, above⟩)

theorem forestAt_positive {level : Nat} (positive : 0 < level) (above nodes : List Node)
    {rest : List (Nat × Site)} (waiting : ∀ p ∈ rest, 0 < p.1 ∧ p.1 ≤ level) :
    ∀ p ∈ forestAt level above nodes ++ rest, 0 < p.1 ∧ p.1 ≤ level := by
  intro p member
  rcases List.mem_append.1 member with member | member
  · obtain ⟨n, -, rfl⟩ := List.mem_map.1 member
    exact ⟨positive, Nat.le_refl level⟩
  · exact waiting p member

theorem childrenAt_eq_forestAt (level : Nat) (n : Node) (above : List Node) :
    childrenAt level ⟨n, above⟩ = forestAt level (n :: above) n.children := by
  simp [childrenAt, forestAt, Site.children]

theorem complete_cons_of_enter {rules : Rules} {level below : Nat} {n : Node} {above : List Node}
    {w w' : Walk α} (h : w.enter rules level ⟨n, above⟩ = .ok (below, w'))
    (pending : List (Nat × Site)) :
    complete rules ((level, ⟨n, above⟩) :: pending) w
      = complete rules (forestAt below (n :: above) n.children ++ pending) w' := by
  rw [complete, run, h, ← childrenAt_eq_forestAt]
  rfl

theorem complete_close (rules : Rules) {pending : List (Nat × Site)} {level : Nat}
    {inner outer : Opening α} {rest : List (Opening α)} (positive : 0 < level)
    (sound : (⟨level + 1, inner :: outer :: rest⟩ : Walk α).Sound)
    (waiting : ∀ p ∈ pending, 0 < p.1 ∧ p.1 ≤ level) :
    complete rules pending ⟨level + 1, inner :: outer :: rest⟩
      = complete rules pending ⟨level, outer.grown 0 [inner.finished] :: rest⟩ := by
  rw [← complete_settled rules sound (Nat.le_succ level) positive waiting, settled]
  simp [Opening.folded]

mutual

/-- A waiting node and all below it end up in the innermost scope, as the recursion has it. -/
theorem complete_node (rules : Rules) (n : Node) (above : List Node) {level : Nat} {o : Opening α}
    {rest : List (Opening α)} {pending : List (Nat × Site)} (ho : o.IsOpen)
    (sound : (⟨level, o :: rest⟩ : Walk α).Sound) (positive : 0 < level)
    (waiting : ∀ p ∈ pending, 0 < p.1 ∧ p.1 ≤ level) :
    complete rules ((level, ⟨n, above⟩) :: pending) ⟨level, o :: rest⟩
      = complete rules pending
          ⟨level, o.grown (rules.decisionsAt above n) (Scope.openedAt rules above n) :: rest⟩ := by
  obtain ⟨label, children⟩ := n
  have hrest : ∀ o ∈ rest, o.IsOpen := (List.forall_mem_cons.1 sound.isOpen).2
  cases opens : rules.scopeKind (.node label children) with
  | none =>
    rw [complete_cons_of_enter (enter_of_scopeKind_none opens sound positive),
      complete_forest rules _ _ (ho.grown _ _) (sound_cons (ho.grown _ _) hrest sound.depth) positive
        waiting,
      Opening.grown_grown]
    simp [Rules.decisionsAt, Rules.opens, opens, Scope.openedAt, Node.children]
  | some kind =>
    have hopened := Opening.isOpen_ofNode (α := α) (.node label children) kind
      (labelOf kind (.node label children))
    have deeper : ∀ p ∈ pending, 0 < p.1 ∧ p.1 ≤ level + 1 :=
      fun p member => ⟨(waiting p member).1, Nat.le_succ_of_le (waiting p member).2⟩
    have depth : (o :: rest).length + 1 = level + 1 := congrArg (· + 1) sound.depth
    rw [complete_cons_of_enter (enter_of_scopeKind_some opens sound positive),
      complete_forest rules _ _ (hopened.grown _ _)
        (sound_cons (hopened.grown _ _) sound.isOpen depth) (Nat.succ_pos level) deeper,
      Opening.grown_grown,
      complete_close rules positive (sound_cons (hopened.grown _ _) sound.isOpen depth) waiting]
    simp [Rules.decisionsAt, Rules.opens, opens, Scope.openedAt, Scope.assemble, Node.children]

theorem complete_forest (rules : Rules) (nodes : List Node) (above : List Node) {level : Nat}
    {o : Opening α} {rest : List (Opening α)} {pending : List (Nat × Site)} (ho : o.IsOpen)
    (sound : (⟨level, o :: rest⟩ : Walk α).Sound) (positive : 0 < level)
    (waiting : ∀ p ∈ pending, 0 < p.1 ∧ p.1 ≤ level) :
    complete rules (forestAt level above nodes ++ pending) ⟨level, o :: rest⟩
      = complete rules pending
          ⟨level, o.grown (rules.decisionsIn above nodes) (Scope.openedIn rules above nodes) :: rest⟩ := by
  have hrest : ∀ o ∈ rest, o.IsOpen := (List.forall_mem_cons.1 sound.isOpen).2
  cases nodes with
  | nil => rfl
  | cons n siblings =>
    rw [Rules.decisionsIn, Scope.openedIn, ← Opening.grown_grown]
    rw [← complete_forest rules siblings above (ho.grown _ _) (sound_cons (ho.grown _ _) hrest sound.depth)
      positive waiting]
    exact complete_node rules n above ho sound positive
      (forestAt_positive positive above siblings waiting)

end

end Walk

/-- The walk never fails, and its tree is that of the recursion. -/
theorem Scope.ofSite_eq_ofNode (rules : Rules) (root : Site) (name : Option String) :
    Scope.ofSite (α := α) rules root name = .ok (Scope.ofNode rules root name) := by
  obtain ⟨n, above⟩ := root
  have hunit := Opening.isOpen_ofNode (α := α) n .unit name
  have hroot := hunit.grown (rules.weigh ⟨n, above⟩) []
  have sound := Walk.sound_cons hroot (List.forall_mem_nil _) (Nat.zero_add 1)
  rw [Scope.ofSite, Walk.start_eq]
  calc
    (⟨1, [(Opening.ofNode n .unit name).grown (rules.weigh ⟨n, above⟩) []]⟩ : Walk α).run rules
          (Walk.childrenAt 1 ⟨n, above⟩) >>= Walk.finish
      = Walk.complete rules (Walk.forestAt 1 (n :: above) n.children ++ [])
          ⟨1, [(Opening.ofNode n .unit name).grown (rules.weigh ⟨n, above⟩) []]⟩ := by
        rw [List.append_nil, ← Walk.childrenAt_eq_forestAt, Walk.complete]
    _ = (⟨1, [(Opening.ofNode n .unit name).grown
          (rules.weigh ⟨n, above⟩ + rules.decisionsIn (n :: above) n.children)
          (Scope.openedIn rules (n :: above) n.children)]⟩ : Walk α).finish := by
        rw [Walk.complete_forest rules n.children (n :: above) hroot sound Nat.one_pos (by simp),
          Opening.grown_grown, List.nil_append, Walk.complete, Walk.run]
        rfl
    _ = .ok (Scope.ofNode rules ⟨n, above⟩ name) := Walk.finish_unit (hunit.grown _ _)

end ScopeComplexity
