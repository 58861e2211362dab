import ScopeComplexity.Proofs.Scope.Recursion
import ScopeComplexity.Proofs.Syntax.Place
import ScopeComplexity.Rules.Language

/-!
The walk node by node. Before each node the depth is the number of open scopes, the levels of the nodes that wait
do not rise along the list and never exceed the depth, and no open scope is finished. So no closing
ever fails, and the walk takes every node below the root once, in document order
(`walk_never_fails`).
-/

namespace ScopeComplexity

open Syntax

variable {α : Type} [Measure α]

structure Opening.Closable (count : Nat) (opened : List (Opening α)) : Prop where
  before : ∀ earlier < count, ∃ stack, close earlier opened = ⟨stack, none⟩ ∧
    2 ≤ stack.length ∧ ∀ o ∈ stack, o.IsOpen
  after : ∃ stack, close count opened = ⟨stack, none⟩ ∧
    stack.length + count = opened.length ∧ ∀ o ∈ stack, o.IsOpen

theorem Opening.closable_of_isOpen {count : Nat} {opened : List (Opening α)}
    (h : ∀ o ∈ opened, o.IsOpen) (hcount : count < opened.length) : Closable count opened where
  before earlier lt := by
    have fewer := Nat.lt_trans lt hcount
    refine ⟨_, close_eq_folded h fewer, ?_, isOpen_folded h earlier⟩
    rw [length_folded fewer]
    omega
  after := by
    refine ⟨_, close_eq_folded h hcount, ?_, isOpen_folded h count⟩
    rw [length_folded hcount]
    omega

namespace Walk

/-- The states of the walk: the nodes it has taken below the root, those that wait, and the open scopes. -/
inductive Reached (rules : Rules) (root : Site) (name : Option String) :
    List Site → List (Nat × Site) → Walk α → Prop where
  | start {w : Walk α} (started : Walk.start rules root name = .ok w) :
      Reached rules root name [] (childrenAt 1 root) w
  | enter {taken : List Site} {level below : Nat} {s : Site} {pending : List (Nat × Site)}
      {w w' : Walk α} (reached : Reached rules root name taken ((level, s) :: pending) w)
      (entered : w.enter rules level s = .ok (below, w')) :
      Reached rules root name (taken ++ [s]) (childrenAt below s ++ pending) w'

structure Steady (pending : List (Nat × Site)) (w : Walk α) : Prop extends w.Sound where
  within : 0 < w.depth
  positive : ∀ p ∈ pending, 0 < p.1
  inside : ∀ p ∈ pending, p.1 ≤ w.depth
  falling : pending.Pairwise fun p q => q.1 ≤ p.1

theorem isOpen_stacked {inner : Opening α} {rest : List (Opening α)} (h : ∀ o ∈ inner :: rest, o.IsOpen)
    (rules : Rules) (s : Site) : ∀ o ∈ stacked rules s (inner :: rest), o.IsOpen := by
  cases opens : rules.scopeKind s.node with
  | some kind =>
    rw [stacked_of_scopeKind_some opens]
    exact List.forall_mem_cons.2 ⟨Opening.IsOpen.grown (Opening.isOpen_ofNode _ _ _) _ _, h⟩
  | none =>
    rw [stacked_of_scopeKind_none opens]
    rw [List.forall_mem_cons] at h
    exact List.forall_mem_cons.2 ⟨h.1.grown _ _, h.2⟩

theorem length_stacked (inner : Opening α) (rest : List (Opening α)) (rules : Rules) (s : Site) :
    (stacked rules s (inner :: rest)).length = (inner :: rest).length + rules.deepens s.node := by
  cases opens : rules.scopeKind s.node with
  | some kind => rw [stacked_of_scopeKind_some opens, Rules.deepens_of_some opens]; rfl
  | none => rw [stacked_of_scopeKind_none opens, Rules.deepens_of_none opens]; rfl

theorem Sound.stacked {level : Nat} {opened : List (Opening α)}
    (h : (⟨level, opened⟩ : Walk α).Sound) (positive : 0 < level) (rules : Rules) (s : Site) :
    (⟨level + rules.deepens s.node, stacked rules s opened⟩ : Walk α).Sound where
  depth := by
    obtain ⟨inner, rest, rfl⟩ := h.exists_cons positive
    rw [length_stacked, h.depth]
  isOpen := by
    obtain ⟨inner, rest, rfl⟩ := h.exists_cons positive
    exact isOpen_stacked h.isOpen rules s

variable {rules : Rules} {root : Site} {name : Option String}

theorem steady_atRoot : Steady (childrenAt 1 root) (atRoot rules root name : Walk α) := by
  have isOpen := Opening.isOpen_ofNode (α := α) root.node .unit name
  refine ⟨sound_cons (isOpen.grown _ _) (List.forall_mem_nil _) rfl, Nat.one_pos, ?_, ?_, ?_⟩
  · exact List.forall_mem_map.2 fun _ _ => Nat.one_pos
  · exact List.forall_mem_map.2 fun _ _ => Nat.le_refl 1
  · exact List.pairwise_map.2 (List.pairwise_of_forall fun _ _ => Nat.le_refl 1)

section

variable {pending : List (Nat × Site)} {w : Walk α} {level : Nat} {s : Site}

theorem Steady.sound_level (h : Steady ((level, s) :: pending) w) :
    (⟨level, (w.settled level).opened⟩ : Walk α).Sound := by
  have inside : level ≤ w.depth := h.inside _ List.mem_cons_self
  have settledSound := h.toSound.settled (h.positive _ List.mem_cons_self) inside
  rwa [settled, Nat.min_eq_right inside] at settledSound

theorem Steady.exists_cons (h : Steady ((level, s) :: pending) w) :
    ∃ inner rest, (w.settled level).opened = inner :: rest :=
  h.sound_level.exists_cons (h.positive _ List.mem_cons_self)

theorem Steady.enter_eq (h : Steady ((level, s) :: pending) w) (rules : Rules) :
    w.enter rules level s = .ok (level + rules.deepens s.node,
      ⟨level + rules.deepens s.node, stacked rules s (w.settled level).opened⟩) :=
  enter_of_sound h.toSound (h.positive _ List.mem_cons_self) (h.inside _ List.mem_cons_self) rules s

theorem Steady.enter (h : Steady ((level, s) :: pending) w) (rules : Rules) :
    ∃ below w', w.enter rules level s = .ok (below, w') ∧ Steady (childrenAt below s ++ pending) w' := by
  have positive : 0 < level := h.positive _ List.mem_cons_self
  have lower : ∀ p ∈ pending, p.1 ≤ level := (List.pairwise_cons.1 h.falling).1
  refine ⟨_, _, h.enter_eq rules, h.sound_level.stacked positive rules s,
    Nat.add_pos_left positive _, ?_, ?_, ?_⟩
  · rw [List.forall_mem_append]
    refine ⟨List.forall_mem_map.2 fun _ _ => Nat.add_pos_left positive _, ?_⟩
    exact fun p member => h.positive p (List.mem_cons_of_mem _ member)
  · rw [List.forall_mem_append]
    refine ⟨List.forall_mem_map.2 fun _ _ => Nat.le_refl _, ?_⟩
    exact fun p member => (lower p member).trans (Nat.le_add_right _ _)
  · rw [List.pairwise_append]
    refine ⟨List.pairwise_map.2 (List.pairwise_of_forall fun _ _ => Nat.le_refl _),
      (List.pairwise_cons.1 h.falling).2, ?_⟩
    intro p inner q member
    obtain ⟨c, -, rfl⟩ := List.mem_map.1 inner
    exact (lower q member).trans (Nat.le_add_right _ _)

end

variable {taken : List Site} {pending : List (Nat × Site)} {w : Walk α}

theorem Reached.steady (h : Reached rules root name taken pending w) : Steady pending w := by
  induction h with
  | start started =>
    cases (start_eq rules root name).symm.trans started
    exact steady_atRoot
  | enter reached entered ih =>
    obtain ⟨below, w', entered', steady⟩ := ih.enter rules
    rw [entered] at entered'
    cases entered'
    exact steady

theorem map_snd_childrenAt (level : Nat) (s : Site) : (childrenAt level s).map (·.2) = s.children := by
  simp [childrenAt, Function.comp_def]

theorem Reached.inOrder (h : Reached rules root name taken pending w) :
    root :: (taken ++ Site.preorder (pending.map (·.2))) = root.node.places.map root.below := by
  rw [← Site.preorder_root]
  induction h with
  | start started => rw [map_snd_childrenAt, Site.preorder, List.append_nil, List.nil_append]
  | enter reached entered ih =>
    rw [← ih, List.map_append, map_snd_childrenAt, List.map_cons, Site.preorder, List.append_assoc]
    rfl

theorem Reached.complete_eq (h : Reached rules root name taken pending w) :
    complete rules pending w = Scope.ofSite rules root name := by
  induction h with
  | start started => rw [Scope.ofSite, started]; rfl
  | enter reached entered ih => rw [← ih, complete, complete, run, entered]

theorem Reached.exists_end (h : Reached rules root name taken pending w) :
    ∃ (taken' : List Site) (w' : Walk α), Reached rules root name taken' [] w' := by
  induction pending, w using run.induct (α := α) rules generalizing taken with
  | case1 w => exact ⟨taken, w, h⟩
  | case2 w level s rest e failed =>
    obtain ⟨below, w', entered, -⟩ := h.steady.enter rules
    cases failed.symm.trans entered
  | case3 w level s rest below w' entered ih => exact ih (h.enter entered)

theorem exists_reached_end (rules : Rules) (root : Site) (name : Option String) :
    ∃ (taken : List Site) (w : Walk α), Reached rules root name taken [] w :=
  (Reached.start (start_eq rules root name)).exists_end

theorem Reached.finish (h : Reached rules root name taken [] w) :
    ∃ unit, Opening.close (w.opened.length - 1) w.opened = ⟨[unit], none⟩ ∧
      unit.kind = .unit ∧ unit.name = name ∧ Scope.ofSite rules root name = .ok unit.finished := by
  have steady := h.steady
  have fewer : w.opened.length - 1 < w.opened.length := by
    rw [steady.depth]
    exact Nat.sub_lt steady.within Nat.one_pos
  have single : (Opening.folded (w.opened.length - 1) w.opened).length = 1 := by
    rw [Opening.length_folded fewer]
    omega
  obtain ⟨unit, last⟩ := List.length_eq_one_iff.1 single
  have isOpen : unit.IsOpen :=
    Opening.isOpen_folded steady.isOpen (w.opened.length - 1) unit (last ▸ List.mem_singleton_self unit)
  have whole : Scope.ofSite rules root name = .ok unit.finished := by
    have settled : w.settled 1 = ⟨1, [unit]⟩ := by
      rw [Walk.settled, ← steady.depth, last, steady.depth, Nat.min_eq_right steady.within]
    rw [← h.complete_eq, complete, run, ← finish_unit isOpen, ← settled]
    exact (finish_settled steady.toSound Nat.one_pos steady.within).symm
  have built : unit.finished = Scope.ofNode rules root name :=
    Except.ok.inj (whole.symm.trans (Scope.ofSite_eq_ofNode rules root name))
  rw [Scope.ofNode, Scope.assemble_eq] at built
  refine ⟨unit, ?_, congrArg Scope.kind built, congrArg Scope.name built, whole⟩
  rw [Opening.close_eq_folded steady.isOpen fewer, last]

structure Safe (rules : Rules) (root : Site) (name : Option String) (taken : List Site)
    (pending : List (Nat × Site)) (w : Walk α) : Prop where
  depth : w.depth = w.opened.length
  levels : ∀ p ∈ pending, 1 ≤ p.1 ∧ p.1 ≤ w.depth
  isOpen : ∀ o ∈ w.opened, o.IsOpen
  inOrder : root :: taken <+: root.node.places.map root.below
  next : ∀ level s rest, pending = (level, s) :: rest →
    Opening.Closable (w.depth - level) w.opened ∧ ∃ below w', w.enter rules level s = .ok (below, w')
  last : pending = [] → root :: taken = root.node.places.map root.below ∧
    Opening.Closable (w.opened.length - 1) w.opened ∧
    ∃ unit, Opening.close (w.opened.length - 1) w.opened = ⟨[unit], none⟩ ∧
      unit.kind = .unit ∧ unit.name = name ∧ Scope.ofSite rules root name = .ok unit.finished

theorem Reached.safe (h : Reached rules root name taken pending w) :
    Safe rules root name taken pending w where
  depth := h.steady.depth.symm
  levels p member := ⟨h.steady.positive p member, h.steady.inside p member⟩
  isOpen := h.steady.isOpen
  inOrder := ⟨_, h.inOrder⟩
  next := by
    rintro level s rest rfl
    have positive := h.steady.positive _ List.mem_cons_self
    obtain ⟨below, w', entered, -⟩ := h.steady.enter rules
    refine ⟨Opening.closable_of_isOpen h.steady.isOpen ?_, below, w', entered⟩
    rw [h.steady.depth]
    exact Nat.sub_lt h.steady.within positive
  last := by
    rintro rfl
    have inOrder := h.inOrder
    rw [List.map_nil, Site.preorder, List.append_nil] at inOrder
    refine ⟨inOrder, Opening.closable_of_isOpen h.steady.isOpen ?_, h.finish⟩
    rw [h.steady.depth]
    exact Nat.sub_lt h.steady.within Nat.one_pos

end Walk

/-- The walk ends and never fails. Before each node the depth is the number of open scopes, none of them is finished,
and the nodes that wait lie inside of one of them at least. The nodes are taken in document order, each node below the
root once, and at the end the unit alone is left. -/
theorem walk_never_fails (rules : Rules) (root : Site) (name : Option String) :
    (∃ t : Scope α, Scope.ofSite rules root name = .ok t) ∧ root.node.places.Nodup ∧
    (∃ (taken : List Site) (w : Walk α), Walk.Reached rules root name taken [] w) ∧
    ∀ (taken : List Site) (pending : List (Nat × Site)) (w : Walk α),
      Walk.Reached rules root name taken pending w →
        Walk.Safe rules root name taken pending w ∧
          (w.run rules pending >>= Walk.finish) = Scope.ofSite rules root name := by
  exact ⟨⟨_, Scope.ofSite_eq_ofNode rules root name⟩, Node.nodup_places root.node,
    Walk.exists_reached_end rules root name, fun _ _ _ h => ⟨h.safe, h.complete_eq⟩⟩

theorem walk_never_fails_of_functions :
    let decision := Node.node { kind := "if", named := false } []
    let function := Node.node { kind := "function_definition" } [decision]
    let file := Node.node { kind := "module" } [function, function]
    let taken : List Site := [⟨function, [file]⟩, ⟨decision, [function, file]⟩, ⟨function, [file]⟩,
      ⟨decision, [function, file]⟩]
    ∃ w : Walk Rat, Walk.Reached Language.python.rules (.root file) none taken [] w ∧
      w.opened.length = 2 ∧ Walk.Safe Language.python.rules (.root file) none taken [] w := by
  intro decision function file taken
  let unit : Walk Rat := ⟨1, [Opening.ofNode file .unit none]⟩
  have start : Walk.Reached Language.python.rules (.root file) none [] _ unit := .start rfl
  have reached := (((start.enter rfl).enter rfl).enter rfl).enter rfl
  exact ⟨_, reached, rfl, ((walk_never_fails _ _ _).2.2.2 taken [] _ reached).1⟩

end ScopeComplexity
