import ScopeComplexity.Journal
import ScopeComplexity.Keyed
import ScopeComplexity.Rules.Language

namespace ScopeComplexity.Grammar

/-- A package that may hold grammars: the entry points it has, each giving a handle or failing. -/
abbrev Package := Keyed (Except String String)

def entryPoint? (package : Package) (grammar : String) : Option (Except String String) :=
  match package.get? ("language_" ++ grammar) with
  | some entry => some entry
  | none => package.get? "language"

def load : Keyed Package → Journal Empty (Keyed String)
  | [] => return []
  | (grammar, package) :: packages =>
    match entryPoint? package grammar with
    | none => load packages
    | some (.ok handle) => do
      let others ← load packages
      return (grammar, handle) :: others
    | some (.error reason) => do
      Journal.log .warning "parser" ("Skipping " ++ grammar ++ " grammar: " ++ reason)
      load packages

structure Parser where
  number : Nat
  handle : String
  deriving DecidableEq

structure Slot where
  thread : Nat
  grammar : String
  deriving DecidableEq

structure Pool where
  grammars : Keyed String
  kept : List (Slot × Parser) := []
  made : List Parser := []

namespace Pool

def has (p : Pool) (grammar : String) : Bool := (p.grammars.get? grammar).isSome

def names (p : Pool) : List String := Language.sortTexts p.grammars.keys

def kept? (p : Pool) (slot : Slot) : Option Parser := p.kept.lookup slot

def make (p : Pool) (slot : Slot) (handle : String) : Parser × Pool :=
  let parser : Parser := ⟨p.made.length + 1, handle⟩
  (parser, { p with kept := (slot, parser) :: p.kept, made := parser :: p.made })

def request (p : Pool) (slot : Slot) : Option Parser × Pool :=
  match p.grammars.get? slot.grammar with
  | none => (none, p)
  | some handle =>
    match p.kept? slot with
    | some parser => (some parser, p)
    | none =>
      let (parser, p) := p.make slot handle
      (some parser, p)

end Pool

end ScopeComplexity.Grammar
