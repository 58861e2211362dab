import ScopeComplexity.Rules

namespace ScopeComplexity

open Syntax

structure Language where
  name : String
  grammar : String
  extensions : List String
  rules : Rules

namespace Language

/-- Short-circuit operators decide only inside a binary expression; the same tokens also open closures and
reference patterns. -/
def operatorGuards : Keyed Guard :=
  let inBinary := Guard.parentIs ["binary_expression"]
  [("&&", inBinary), ("||", inBinary)]

/-- An `else` decides only when it closes a loop. The one of a condition is paid for by its keyword. -/
def isLoopElse : Guard :=
  Guard.ancestor (Site.kindIn ["for_statement", "while_statement"]) (Site.kindNotIn ["else_clause"])

def python : Language where
  name := "python"
  grammar := "python"
  extensions := [".py", ".pyi", ".pyw"]
  rules :=
    { decisions := ["if", "elif", "for", "while", "except", "with", "assert", "and", "or", "else"]
      guards := [("else", isLoopElse)]
      scopes := [("function_definition", .function), ("class_definition", .classScope),
        ("lambda", .closure)] }

def braceDecisions : List String :=
  ["if", "for", "while", "case", "catch", "ternary_expression", "&&", "||"]

def scriptScopes : Keyed ScopeKind :=
  [("function_declaration", .function), ("generator_function_declaration", .function),
    ("method_definition", .function), ("function_expression", .closure), ("function", .closure),
    ("generator_function", .closure), ("arrow_function", .closure),
    ("class_declaration", .classScope), ("class", .classScope)]

def typedScriptScopes : Keyed ScopeKind :=
  scriptScopes ++ [("abstract_class_declaration", .classScope), ("interface_declaration", .interface)]

def script (name grammar : String) (extensions : List String) (scopes : Keyed ScopeKind) : Language where
  name
  grammar
  extensions
  rules := { decisions := braceDecisions, guards := operatorGuards, scopes }

def javascript : Language :=
  script "javascript" "javascript" [".js", ".mjs", ".cjs", ".jsx"] scriptScopes

def mozjs : Language := script "mozjs" "javascript" [".jsm"] scriptScopes

def typescript : Language :=
  script "typescript" "typescript" [".ts", ".mts", ".cts"] typedScriptScopes

def tsx : Language := script "tsx" "tsx" [".tsx"] typedScriptScopes

/-- An anonymous class body opens no scope; its methods lie directly in the enclosing one. -/
def java : Language where
  name := "java"
  grammar := "java"
  extensions := [".java"]
  rules :=
    { decisions := braceDecisions
      guards := operatorGuards
      scopes := [("class_declaration", .classScope), ("enum_declaration", .classScope),
        ("record_declaration", .classScope), ("interface_declaration", .interface),
        ("method_declaration", .function), ("constructor_declaration", .function),
        ("lambda_expression", .closure)] }

def cScopes : Keyed ScopeKind :=
  [("function_definition", .function), ("struct_specifier", .struct), ("union_specifier", .struct)]

def cppScopes : Keyed ScopeKind :=
  cScopes ++ [("class_specifier", .classScope), ("namespace_definition", .namespaceScope),
    ("lambda_expression", .closure)]

/-- A specifier without a body only names a type. -/
def cFamily (name : String) (extensions : List String) (scopes : Keyed ScopeKind) : Language where
  name
  grammar := name
  extensions
  rules :=
    { decisions :=
        ["if", "for", "while", "case", "catch", "conditional_expression", "&&", "||"]
      guards := operatorGuards
      scopes
      bodyRequired := ["struct_specifier", "union_specifier", "class_specifier"] }

def c : Language := cFamily "c" [".c", ".h"] cScopes

def cpp : Language :=
  cFamily "cpp" [".cpp", ".cc", ".cxx", ".c++", ".hpp", ".hh", ".hxx", ".h++"] cppScopes

/-- The word `for` also joins a trait to a type and opens bounds; only loop heads decide. -/
def rust : Language where
  name := "rust"
  grammar := "rust"
  extensions := [".rs"]
  rules :=
    { decisions := ["if", "for", "while", "loop", "match_arm", "try_expression", "&&", "||"]
      guards := operatorGuards ++ [("for", Guard.parentIs ["for_expression"])]
      scopes := [("function_item", .function), ("closure_expression", .closure),
        ("impl_item", .impl), ("trait_item", .trait)] }

def go : Language where
  name := "go"
  grammar := "go"
  extensions := [".go"]
  rules :=
    { scopes := [("function_declaration", .function), ("method_declaration", .function),
        ("func_literal", .closure)] }

def ruby : Language where
  name := "ruby"
  grammar := "ruby"
  extensions := [".rb"]
  rules :=
    { scopes := [("method", .function), ("singleton_method", .function), ("class", .classScope),
        ("module", .namespaceScope), ("lambda", .closure)] }

def all : List Language :=
  [python, javascript, mozjs, typescript, tsx, java, c, cpp, rust, go, ruby]

def ofName? (name : String) : Option Language := all.find? (·.name == name)

def ofExtension? (extension : String) : Option Language :=
  all.find? (·.extensions.contains extension)

def sortTexts (texts : List String) : List String := texts.mergeSort fun a b => a ≤ b

def supported : List String := sortTexts (all.map (·.name))

def knownExtensions : List String := sortTexts (all.flatMap (·.extensions))

theorem extensions_nodup : (all.flatMap (·.extensions)).Nodup := by decide

end Language

end ScopeComplexity
