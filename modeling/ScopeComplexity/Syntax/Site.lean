import ScopeComplexity.Syntax.Node
import ScopeComplexity.WorkList

namespace ScopeComplexity.Syntax

structure Site where
  node : Node
  /-- The ancestors, the parent first and the root last. -/
  above : List Node

namespace Site

def root (n : Node) : Site := ⟨n, []⟩

def parent? (s : Site) : Option Site :=
  match s.above with
  | [] => none
  | parent :: above => some ⟨parent, above⟩

def children (s : Site) : List Site :=
  s.node.children.map (⟨·, s.node :: s.above⟩)

def searchLimit : Nat := 10000

/-- Looks at the given ancestors in turn until one is found, one stops the search, or the limit is used
up. One that does both is found. -/
def climb (found stop : Site → Bool) : Nat → List Node → Bool
  | 0, _ => false
  | _ + 1, [] => false
  | limit + 1, n :: above =>
    if found ⟨n, above⟩ then true
    else if stop ⟨n, above⟩ then false
    else climb found stop limit above

def hasAncestor (s : Site) (found stop : Site → Bool) : Bool :=
  climb found stop searchLimit s.above

def kindIn (kinds : List String) (s : Site) : Bool := kinds.contains s.node.kind

def kindNotIn (kinds : List String) (s : Site) : Bool := !kindIn kinds s

theorem weight_children_lt (s : Site) :
    WorkList.weight (s.children.map (·.node)) < sizeOf s.node := by
  obtain ⟨⟨label, children⟩, above⟩ := s
  have := WorkList.weight_lt_sizeOf children
  simp only [Site.children, Node.children, List.map_map, Function.comp_def, List.map_id',
    Node.node.sizeOf_spec]
  omega

def preorder (pending : List Site) : List Site :=
  match pending with
  | [] => []
  | s :: rest => s :: preorder (s.children ++ rest)
termination_by WorkList.weight (pending.map (·.node))
decreasing_by
  have := s.weight_children_lt
  simp only [List.map_append, List.map_cons, WorkList.weight_append, WorkList.weight]
  omega

end Site

end ScopeComplexity.Syntax
