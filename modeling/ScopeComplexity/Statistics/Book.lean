import ScopeComplexity.Keyed
import ScopeComplexity.Statistics.Tally

namespace ScopeComplexity

structure Book (α : Type) where
  tallies : Keyed (Tally α) := []
  summaries : Keyed (Summary α) := []

inductive Book.Entry (α : Type) where
  | start (tally : String)
  | increment (tally : String) (times : Nat)
  | absorb (tally summary : String)
  | finish (tally summary : String)
  | record (summary : String) (value : Summary α)
  | merge (left right summary : String)
  | combine (parts : List String) (summary : String)

inductive Book.Refusal where
  | state (error : StateError)
  | unknown (name : String)
  deriving DecidableEq

namespace Book

variable {α : Type} [Measure α]

def tally (b : Book α) (name : String) : Except Refusal (Tally α) :=
  match b.tallies.get? name with
  | some t => .ok t
  | none => .error (.unknown name)

def summary (b : Book α) (name : String) : Except Refusal (Summary α) :=
  match b.summaries.get? name with
  | some s => .ok s
  | none => .error (.unknown name)

def putTally (b : Book α) (name : String) (t : Tally α) : Book α :=
  { b with tallies := b.tallies.put name t }

def putSummary (b : Book α) (name : String) (s : Summary α) : Book α :=
  { b with summaries := b.summaries.put name s }

def enter (b : Book α) : Entry α → Except Refusal (Book α)
  | .start name => .ok (b.putTally name Tally.start)
  | .increment name times => do
    let t ← b.tally name
    let t ← (t.incrementBy times).mapError .state
    return b.putTally name t
  | .absorb name child => do
    let t ← b.tally name
    let t ← (t.absorb (← b.summary child)).mapError .state
    return b.putTally name t
  | .finish name result => do
    let t ← b.tally name
    let (s, t) ← t.finish.mapError .state
    return (b.putTally name t).putSummary result s
  | .record name value => .ok (b.putSummary name value)
  | .merge left right result => do
    let l ← b.summary left
    let r ← b.summary right
    return b.putSummary result (l.merge r)
  | .combine parts result => do
    let summaries ← parts.mapM b.summary
    return match Summary.combine summaries with
      | some s => b.putSummary result s
      | none => b

def run (b : Book α) (entries : List (Entry α)) : Book α :=
  entries.foldl (fun b entry => (b.enter entry).toOption.getD b) b

end Book

end ScopeComplexity
