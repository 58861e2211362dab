import Mathlib.Data.List.FinRange
import Mathlib.Data.Multiset.MapFold
import ScopeComplexity.Syntax.Site

namespace ScopeComplexity.Syntax

def moved {count : Nat} (σ : Equiv.Perm (Fin count)) (place : Nat) : Nat :=
  if h : place < count then σ ⟨place, h⟩ else place

def Label.moved {count : Nat} (σ : Equiv.Perm (Fin count)) (label : Label) : Label :=
  { label with fields := label.fields.map fun field => (field.1, Syntax.moved σ field.2) }

theorem rel_moved {β γ : Type} {R : β → γ → Prop} {xs : List β} (σ : Equiv.Perm (Fin xs.length))
    {inner : Fin xs.length → γ} (each : ∀ i, R (xs.get i) (inner i)) :
    Multiset.Rel R xs (List.ofFn fun place => inner (σ.symm place)) := by
  have back : (List.ofFn fun place => inner (σ.symm place)).Perm (List.ofFn inner) :=
    Equiv.Perm.ofFn_comp_perm σ.symm inner
  have pairs : Multiset.Rel R (List.ofFn xs.get) (List.ofFn inner) := by
    rw [List.ofFn_eq_map, List.ofFn_eq_map, ← Multiset.map_coe, ← Multiset.map_coe, Multiset.rel_map]
    exact Multiset.rel_refl_of_refl_on fun i _ => each i
  rwa [List.ofFn_get, ← Multiset.coe_eq_coe.2 back] at pairs

namespace Node

/-- The second tree is the first one after its children, each reordered in itself, have gone to other places. -/
inductive Reordered : Node → Node → Prop where
  | node (label : Label) {children : List Node} (σ : Equiv.Perm (Fin children.length))
      {inner : Fin children.length → Node} (each : ∀ i, Reordered (children.get i) (inner i)) :
      Reordered (.node label children) (.node (label.moved σ) (List.ofFn fun place => inner (σ.symm place)))

theorem reordered_refl (n : Node) : n.Reordered n := by
  obtain ⟨label, children⟩ := n
  have each : ∀ i, Reordered (children.get i) (children.get i) := fun i => reordered_refl _
  have stay : label.moved (Equiv.refl (Fin children.length)) = label := by
    simp [Label.moved, Syntax.moved]
  have tree := Reordered.node label (Equiv.refl _) each
  rw [stay] at tree
  simpa using tree
termination_by sizeOf n
decreasing_by
  have := List.sizeOf_lt_of_mem (List.get_mem children i)
  simp only [Node.node.sizeOf_spec]
  omega

variable {n n' : Node}

theorem Reordered.kind_eq (h : n.Reordered n') : n.kind = n'.kind := by
  cases h
  rfl

theorem Reordered.named_eq (h : n.Reordered n') : n.named = n'.named := by
  cases h
  rfl

theorem Reordered.lines_eq (h : n.Reordered n') : n.lines = n'.lines := by
  cases h
  rfl

theorem Reordered.decodedText_eq (h : n.Reordered n') : n.decodedText = n'.decodedText := by
  cases h
  rfl

theorem lookup_moved {count : Nat} (σ : Equiv.Perm (Fin count)) (label : Label) (field : String) :
    (label.moved σ).fields.lookup field = (label.fields.lookup field).map (moved σ) := by
  rw [Label.moved]
  induction label.fields with
  | nil => rfl
  | cons entry fields ih =>
    obtain ⟨name, place⟩ := entry
    rw [List.map_cons, List.lookup_cons, List.lookup_cons, ih]
    cases field == name with
    | true => rfl
    | false => rfl

theorem getElem?_moved {count : Nat} (σ : Equiv.Perm (Fin count)) (inner : Fin count → Node)
    (place : Nat) : (List.ofFn fun place => inner (σ.symm place))[moved σ place]?
      = if h : place < count then some (inner ⟨place, h⟩) else none := by
  by_cases h : place < count
  · simp [moved, h]
  · simp [moved, h]

theorem Reordered.child? (h : n.Reordered n') (field : String) :
    Option.Rel Reordered (n.child? field) (n'.child? field) := by
  cases h with
  | node label σ each =>
    rename_i children inner
    rw [Node.child?, Node.child?, Node.label, Node.label, Node.children, Node.children, lookup_moved]
    cases label.fields.lookup field with
    | none => exact Option.Rel.none
    | some place =>
      rw [Option.map_some, Option.bind_some, Option.bind_some, getElem?_moved]
      by_cases h : place < children.length
      · rw [dif_pos h, List.getElem?_eq_getElem h]
        exact Option.Rel.some (each ⟨place, h⟩)
      · rw [dif_neg h, List.getElem?_eq_none (not_lt.1 h)]
        exact Option.Rel.none

theorem Reordered.lastDeclarator (h : n.Reordered n') :
    n.lastDeclarator.Reordered n'.lastDeclarator := by
  induction n using Node.lastDeclarator.induct generalizing n' with
  | case1 n last =>
    have other := h.child? "declarator"
    rw [last] at other
    cases found : n'.child? "declarator" with
    | none =>
      rw [lastDeclarator_of_none last, lastDeclarator_of_none found]
      exact h
    | some inner =>
      rw [found] at other
      cases other
  | case2 n inner next ih =>
    have other := h.child? "declarator"
    rw [next] at other
    cases found : n'.child? "declarator" with
    | none =>
      rw [found] at other
      cases other
    | some inner' =>
      rw [found] at other
      rw [lastDeclarator_of_some next, lastDeclarator_of_some found]
      cases other with
      | some related => exact ih related

theorem Reordered.nameNode? (h : n.Reordered n') :
    Option.Rel Reordered n.nameNode? n'.nameNode? := by
  have name := h.child? "name"
  have declarator := h.child? "declarator"
  rw [Node.nameNode?, Node.nameNode?]
  generalize n.child? "name" = a, n'.child? "name" = a' at name ⊢
  generalize n.child? "declarator" = b, n'.child? "declarator" = b' at declarator ⊢
  cases name with
  | some related => exact Option.Rel.some related
  | none =>
    cases declarator with
    | some related => exact Option.Rel.some related.lastDeclarator
    | none => exact h.child? "type"

theorem Reordered.scopeName_eq (h : n.Reordered n') : n.scopeName = n'.scopeName := by
  have naming := h.nameNode?
  rw [scopeName, scopeName]
  generalize n.nameNode? = a, n'.nameNode? = a' at naming ⊢
  cases naming with
  | some related => exact related.decodedText_eq
  | none => rfl

end Node

end ScopeComplexity.Syntax
