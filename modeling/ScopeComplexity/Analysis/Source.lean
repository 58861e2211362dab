import ScopeComplexity.Fault
import ScopeComplexity.Host
import ScopeComplexity.Journal
import ScopeComplexity.Rules.Detection
import ScopeComplexity.Scope.Walk
import ScopeComplexity.Settings

namespace ScopeComplexity

open Syntax

inductive Code where
  | text (value : String)
  | bytes (value : ByteArray)

def Code.toBytes : Code → ByteArray
  | .text value => value.toUTF8
  | .bytes value => value

structure Reading where
  root : Node
  hasErrors : Bool

structure FrontEnd where
  grammars : List String
  read : String → ByteArray → Reading

namespace FrontEnd

def has (f : FrontEnd) (grammar : String) : Bool := f.grammars.contains grammar

def ask {ε : Type} (f : FrontEnd) (grammar : String) (code : ByteArray) :
    Journal ε (Option Reading) := do
  Journal.note (.asked grammar code)
  return if f.has grammar then some (f.read grammar code) else none

def languages (f : FrontEnd) : List String :=
  Language.sortTexts ((Language.all.filter fun l => f.has l.grammar).map (·.name))

end FrontEnd

namespace Analysis

def orElse (otherwise : String) (name : Option String) : String :=
  match name with
  | some name => if name.isEmpty then otherwise else name
  | none => otherwise

def unit (rules : Rules) (root : Site) (name : Option String) : Journal Failure (Scope Float) := do
  let scope ← Journal.ofExcept ((Scope.ofSite rules root name).mapError fun e => .fault (.ofState e))
  let metrics ← Journal.ofExcept (scope.metrics.describe.mapError fun e => .defect (.noMean e))
  Journal.log .debug "spaces"
    ("Built " ++ toString scope.count ++ " spaces for " ++ orElse "<unit>" name ++ ": " ++ metrics)
  return scope

def findLanguage (name : String) : Except Failure Language :=
  match Language.ofName? name with
  | some language => .ok language
  | none => .error (Fault.unsupportedLanguage name Language.supported)

def source (settings : Settings) (frontEnd : FrontEnd) (code : Code) (languageName : String)
    (name : Option String) : Journal Failure (Scope Float) := do
  let language ← Journal.ofExcept (findLanguage languageName)
  match ← frontEnd.ask language.grammar code.toBytes with
  | none => throw (.fault (.unsupportedLanguage languageName frontEnd.languages))
  | some reading =>
    let shown := orElse "<source>" name
    if reading.hasErrors then
      if (settings.value .strictParsing).isTrue then
        throw (.fault (.parsing (.text shown) languageName "syntax tree contains errors"))
      else Journal.log .debug "analyzer" (shown ++ ": syntax errors, analyzing recovered tree")
    unit language.rules (.root reading.root) name

def languageFor (p : Path) (named : Option String) : String :=
  orElse (Language.nameFor p) named

def file (settings : Settings) (frontEnd : FrontEnd) (host : Host) (p : Path)
    (named : Option String) : Journal Failure (Scope Float) :=
  if p.hasNull then throw (.defect .nullCharacter)
  else
    match host.read p with
    | .error obstacle => throw (.fault (.fileAccess (.path p) (obstacle.message p.shown)))
    | .ok content =>
      source settings frontEnd (.bytes content) (languageFor p named) (some p.shown)

end Analysis

end ScopeComplexity
