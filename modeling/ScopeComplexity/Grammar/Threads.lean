import ScopeComplexity.Grammar.Pool

/-!
Requests for parsers step by step. Each thread has a map of parsers of its own, made when it first needs one, and
goes on whatever the others do in the meantime; what they share is the loaded grammars, which do not change.
-/

namespace ScopeComplexity.Grammar

inductive Stage where
  | idle
  | asked (grammar : String)
  | loaded (grammar handle : String)
  | mapless (grammar handle : String)
  | mapped (grammar handle : String)
  | missing (grammar handle : String)
  | made (grammar : String) (parser : Parser)
  deriving DecidableEq

inductive Move where
  | ask (grammar : String)
  | goOn
  deriving DecidableEq

structure Event where
  thread : Nat
  move : Move
  deriving DecidableEq

structure Threads where
  grammars : Keyed String
  maps : Nat → Option (Keyed Parser) := fun _ => none
  stages : Nat → Stage := fun _ => .idle
  made : List (Slot × Parser) := []
  answers : List (Slot × Option Parser) := []

def changed (f : Nat → β) (n : Nat) (value : β) (k : Nat) : β := if k = n then value else f k

namespace Threads

def moveTo (w : Threads) (thread : Nat) (stage : Stage) : Threads :=
  { w with stages := changed w.stages thread stage }

def keepMap (w : Threads) (thread : Nat) (parsers : Keyed Parser) : Threads :=
  { w with maps := changed w.maps thread (some parsers) }

def answer (w : Threads) (slot : Slot) (parser : Option Parser) : Threads :=
  { w.moveTo slot.thread .idle with answers := (slot, parser) :: w.answers }

def make (w : Threads) (slot : Slot) (handle : String) : Parser × Threads :=
  let parser : Parser := ⟨w.made.length + 1, handle⟩
  (parser, { w with made := (slot, parser) :: w.made })

def goOn (w : Threads) (thread : Nat) : Threads :=
  match w.stages thread with
  | .idle => w
  | .asked grammar =>
    match w.grammars.get? grammar with
    | none => w.answer ⟨thread, grammar⟩ none
    | some handle => w.moveTo thread (.loaded grammar handle)
  | .loaded grammar handle =>
    match w.maps thread with
    | none => w.moveTo thread (.mapless grammar handle)
    | some _ => w.moveTo thread (.mapped grammar handle)
  | .mapless grammar handle => (w.keepMap thread []).moveTo thread (.mapped grammar handle)
  | .mapped grammar handle =>
    match (w.maps thread).bind (·.get? grammar) with
    | none => w.moveTo thread (.missing grammar handle)
    | some parser => w.answer ⟨thread, grammar⟩ (some parser)
  | .missing grammar handle =>
    let (parser, w) := w.make ⟨thread, grammar⟩ handle
    w.moveTo thread (.made grammar parser)
  | .made grammar parser =>
    let parsers := (w.maps thread).getD []
    (w.keepMap thread (parsers.put grammar parser)).answer ⟨thread, grammar⟩ (some parser)

/-- A thread asks for nothing while it waits for an answer. -/
def next (w : Threads) (event : Event) : Threads :=
  match event.move with
  | .goOn => w.goOn event.thread
  | .ask grammar =>
    match w.stages event.thread with
    | .idle => w.moveTo event.thread (.asked grammar)
    | _ => w

def run (w : Threads) (events : List Event) : Threads := events.foldl next w

end Threads

end ScopeComplexity.Grammar
