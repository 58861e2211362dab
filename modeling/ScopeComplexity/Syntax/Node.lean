import ScopeComplexity.Text.Utf8

namespace ScopeComplexity.Syntax

structure Label where
  kind : String
  /-- False for keywords and punctuation, whose kind is the token itself. -/
  named : Bool := true
  startRow : Int := 0
  endRow : Int := 0
  text : Option ByteArray := none
  /-- The place among the children that each field name stands for. -/
  fields : List (String × Nat) := []

inductive Node where
  | node (label : Label) (children : List Node)

namespace Node

def label : Node → Label
  | .node label _ => label

def children : Node → List Node
  | .node _ children => children

def kind (n : Node) : String := n.label.kind

def named (n : Node) : Bool := n.label.named

def child? (n : Node) (field : String) : Option Node :=
  (n.label.fields.lookup field).bind (n.children[·]?)

theorem sizeOf_child?_lt {n child : Node} {field : String} (h : n.child? field = some child) :
    sizeOf child < sizeOf n := by
  obtain ⟨label, children⟩ := n
  obtain ⟨place, -, h⟩ := Option.bind_eq_some_iff.1 h
  have := List.sizeOf_lt_of_mem (List.mem_of_getElem? h)
  simp only [Node.node.sizeOf_spec, Node.children] at *
  omega

def lines (n : Node) : Int × Int := (n.label.startRow + 1, n.label.endRow + 1)

def decodedText (n : Node) : Option String := n.label.text.map Text.decode

def lastDeclarator (n : Node) : Node :=
  match _h : n.child? "declarator" with
  | none => n
  | some inner => inner.lastDeclarator
termination_by sizeOf n
decreasing_by exact sizeOf_child?_lt ‹_›

theorem lastDeclarator_of_none {n : Node} (h : n.child? "declarator" = none) : n.lastDeclarator = n := by
  rw [lastDeclarator]
  split
  · rfl
  · rename_i found
    cases h.symm.trans found

theorem lastDeclarator_of_some {n inner : Node} (h : n.child? "declarator" = some inner) :
    n.lastDeclarator = inner.lastDeclarator := by
  rw [lastDeclarator]
  split
  · rename_i last
    cases h.symm.trans last
  · rename_i found
    cases h.symm.trans found
    rfl

/-- The node that names another one: its `name`, else the end of its declarators, else its `type`. -/
def nameNode? (n : Node) : Option Node :=
  match n.child? "name" with
  | some name => some name
  | none =>
    match n.child? "declarator" with
    | some declarator => some declarator.lastDeclarator
    | none => n.child? "type"

def scopeName (n : Node) : Option String := n.nameNode?.bind decodedText

end Node

end ScopeComplexity.Syntax
