namespace ScopeComplexity

inductive ScopeKind where
  | unknown
  | unit
  | function
  | classScope
  | struct
  | trait
  | impl
  | interface
  | namespaceScope
  | closure
  deriving DecidableEq

namespace ScopeKind

def all : List ScopeKind :=
  [unknown, unit, function, classScope, struct, trait, impl, interface, namespaceScope, closure]

def text : ScopeKind → String
  | .unknown => "unknown"
  | .unit => "unit"
  | .function => "function"
  | .classScope => "class"
  | .struct => "struct"
  | .trait => "trait"
  | .impl => "impl"
  | .interface => "interface"
  | .namespaceScope => "namespace"
  | .closure => "closure"

def ofText? (text : String) : Option ScopeKind := all.find? (·.text == text)

theorem text_injective {a b : ScopeKind} (h : a.text = b.text) : a = b := by
  revert h; cases a <;> cases b <;> decide

end ScopeKind

end ScopeComplexity
