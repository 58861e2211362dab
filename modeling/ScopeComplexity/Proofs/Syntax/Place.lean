import Mathlib.Data.List.Infix
import ScopeComplexity.Syntax.Site

namespace ScopeComplexity.Syntax

abbrev Place := List Nat

mutual

/-- The places of a node and of all below it, in document order. -/
def Node.placesAt (p : Place) : Node → List Place
  | .node _ children => p :: placesFrom p 0 children

def Node.placesFrom (p : Place) (i : Nat) : List Node → List Place
  | [] => []
  | n :: siblings => n.placesAt (p ++ [i]) ++ placesFrom p (i + 1) siblings

end

def Node.places (root : Node) : List Place := root.placesAt []

namespace Site

def child (s : Site) (i : Nat) : Site := s.children[i]?.getD s

def below (s : Site) (p : Place) : Site := p.foldl child s

@[simp] theorem below_nil (s : Site) : s.below [] = s := rfl

theorem below_cons (s : Site) (i : Nat) (p : Place) : s.below (i :: p) = (s.child i).below p := rfl

theorem below_concat (s : Site) (p : Place) (i : Nat) : s.below (p ++ [i]) = (s.below p).child i := by
  simp [below]

theorem child_eq {s : Site} {i : Nat} {n : Node} (h : s.node.children[i]? = some n) :
    s.child i = ⟨n, s.node :: s.above⟩ := by
  simp [child, children, h]

def LiesFrom (root : Site) (p : Place) (i : Nat) (above nodes : List Node) : Prop :=
  ∀ j n, nodes[j]? = some n → root.below (p ++ [i + j]) = ⟨n, above⟩

theorem LiesFrom.head {root : Site} {p : Place} {i : Nat} {above siblings : List Node} {n : Node}
    (h : root.LiesFrom p i above (n :: siblings)) : root.below (p ++ [i]) = ⟨n, above⟩ :=
  h 0 n rfl

theorem LiesFrom.tail {root : Site} {p : Place} {i : Nat} {above siblings : List Node} {n : Node}
    (h : root.LiesFrom p i above (n :: siblings)) : root.LiesFrom p (i + 1) above siblings := by
  intro j m hm
  have := h (j + 1) m hm
  rwa [Nat.add_comm j 1, ← Nat.add_assoc] at this

theorem liesFrom_children {root : Site} {p : Place} {n : Node} {above : List Node}
    (h : root.below p = ⟨n, above⟩) : root.LiesFrom p 0 (n :: above) n.children := by
  intro j m hm
  rw [Nat.zero_add, below_concat, h]
  exact child_eq hm

theorem liesFrom_root_children (root : Site) :
    root.LiesFrom [] 0 (root.node :: root.above) root.node.children :=
  liesFrom_children (n := root.node) rfl

end Site

namespace Node

mutual

theorem prefix_of_mem_placesAt (n : Node) {p q : Place} (h : q ∈ n.placesAt p) : p <+: q := by
  obtain ⟨label, children⟩ := n
  rcases List.mem_cons.1 h with rfl | h
  · exact List.prefix_rfl
  · obtain ⟨j, -, hj⟩ := prefix_of_mem_placesFrom children h
    exact (List.prefix_append p [j]).trans hj

theorem prefix_of_mem_placesFrom (nodes : List Node) {p q : Place} {i : Nat}
    (h : q ∈ placesFrom p i nodes) : ∃ j, i ≤ j ∧ p ++ [j] <+: q := by
  cases nodes with
  | nil => cases h
  | cons n siblings =>
    rcases List.mem_append.1 h with h | h
    · exact ⟨i, Nat.le_refl i, prefix_of_mem_placesAt n h⟩
    · obtain ⟨j, le, hj⟩ := prefix_of_mem_placesFrom siblings h
      exact ⟨j, Nat.le_of_succ_le le, hj⟩

end

mutual

theorem nodup_placesAt (n : Node) (p : Place) : (n.placesAt p).Nodup := by
  obtain ⟨label, children⟩ := n
  refine List.nodup_cons.2 ⟨fun h => ?_, nodup_placesFrom children p 0⟩
  obtain ⟨j, -, hj⟩ := prefix_of_mem_placesFrom children h
  exact absurd hj.length_le (by simp)

theorem nodup_placesFrom (nodes : List Node) (p : Place) (i : Nat) : (placesFrom p i nodes).Nodup := by
  cases nodes with
  | nil => exact List.nodup_nil
  | cons n siblings =>
    refine List.nodup_append.2 ⟨nodup_placesAt n _, nodup_placesFrom siblings p (i + 1), ?_⟩
    rintro q here _ there rfl
    obtain ⟨j, later, hj⟩ := prefix_of_mem_placesFrom siblings there
    have hi := prefix_of_mem_placesAt n here
    -- both numbers are the entry of the place behind the same prefix
    have same : p ++ [i] = p ++ [j] :=
      (List.prefix_of_prefix_length_le hi hj (by simp)).eq_of_length (by simp)
    have : i = j := by simpa using same
    omega

end

theorem nodup_places (root : Node) : root.places.Nodup := nodup_placesAt root []

mutual

theorem placesAt_eq_map (n : Node) (p : Place) : n.placesAt p = n.places.map (p ++ ·) := by
  obtain ⟨label, children⟩ := n
  rw [places, placesAt, placesAt, List.map_cons, List.append_nil, placesFrom_eq_map children p 0]

theorem placesFrom_eq_map (nodes : List Node) (p : Place) (i : Nat) :
    placesFrom p i nodes = (placesFrom [] i nodes).map (p ++ ·) := by
  cases nodes with
  | nil => rfl
  | cons n siblings =>
    rw [placesFrom, placesFrom, List.map_append, placesAt_eq_map n (p ++ [i]), placesAt_eq_map n ([] ++ [i]),
      placesFrom_eq_map siblings p (i + 1), List.map_map]
    simp only [Function.comp_def, List.nil_append, List.append_assoc]

end

theorem nil_mem_places (n : Node) : [] ∈ n.places := by
  obtain ⟨label, children⟩ := n
  exact List.mem_cons_self

theorem mem_placesFrom {nodes : List Node} {n : Node} {i j : Nat} {p : Place} (found : nodes[j]? = some n)
    (member : p ∈ n.places) : (i + j) :: p ∈ placesFrom [] i nodes := by
  induction nodes generalizing i j with
  | nil => cases found
  | cons first siblings ih =>
    rw [placesFrom, List.mem_append]
    cases j with
    | zero =>
      cases found
      rw [placesAt_eq_map]
      exact .inl (List.mem_map_of_mem member)
    | succ j =>
      have later : (i + 1 + j) :: p ∈ placesFrom [] (i + 1) siblings := ih found
      rw [Nat.add_assoc, Nat.add_comm 1 j] at later
      exact .inr later

theorem cons_mem_places {n child : Node} {i : Nat} {p : Place} (found : n.children[i]? = some child)
    (member : p ∈ child.places) : i :: p ∈ n.places := by
  obtain ⟨label, children⟩ := n
  have below : (0 + i) :: p ∈ placesFrom [] 0 children := mem_placesFrom found member
  rw [Nat.zero_add] at below
  exact List.mem_cons_of_mem _ below

end Node

namespace Site

mutual

theorem preorder_placesAt (root : Site) (n : Node) {above : List Node} {p : Place}
    (lies : root.below p = ⟨n, above⟩) (rest : List Site) :
    preorder (⟨n, above⟩ :: rest) = (n.placesAt p).map root.below ++ preorder rest := by
  obtain ⟨label, children⟩ := n
  rw [preorder, Node.placesAt, List.map_cons, List.cons_append, lies]
  exact congrArg _ (preorder_placesFrom root children (liesFrom_children lies) rest)

theorem preorder_placesFrom (root : Site) (nodes : List Node) {above : List Node} {p : Place} {i : Nat}
    (lies : root.LiesFrom p i above nodes) (rest : List Site) :
    preorder (nodes.map (⟨·, above⟩) ++ rest)
      = (Node.placesFrom p i nodes).map root.below ++ preorder rest := by
  cases nodes with
  | nil => rfl
  | cons n siblings =>
    rw [List.map_cons, List.cons_append, preorder_placesAt root n lies.head,
      preorder_placesFrom root siblings lies.tail, Node.placesFrom, List.map_append, List.append_assoc]

end

theorem preorder_root (root : Site) : preorder [root] = root.node.places.map root.below := by
  have all := preorder_placesAt root root.node (p := []) rfl []
  rwa [preorder, List.append_nil] at all

end Site

end ScopeComplexity.Syntax
