import Mathlib.Logic.Function.Iterate
import ScopeComplexity.Statistics.Tally

namespace ScopeComplexity

variable {α : Type} [Measure α]

def Measure.complexity (decisions : Nat) : α := (Measure.add · Measure.one)^[decisions] Measure.one

def Summary.over (own : α) (inner : List (Summary α)) : Summary α where
  sum := Measure.add ((inner.map (·.sum)).foldl Measure.add Measure.zero) own
  count := (inner.map (·.count)).foldl (· + ·) 1
  least := Measure.least ((inner.map (·.least)).foldl Measure.least Measure.ceiling) own
  greatest := Measure.greatest ((inner.map (·.greatest)).foldl Measure.greatest Measure.zero) own

namespace Tally

def IsOpen (t : Tally α) : Prop := t.final = none

def raised (t : Tally α) : Tally α :=
  { t with cyclomatic := Measure.add t.cyclomatic Measure.one }

def absorbed (t : Tally α) (child : Summary α) : Tally α :=
  { t with
    greatest := Measure.greatest t.greatest child.greatest
    least := Measure.least t.least child.least
    sum := Measure.add t.sum child.sum
    count := t.count + child.count }

def ended (t : Tally α) : Tally α :=
  { t with
    greatest := t.summary.greatest
    least := t.summary.least
    sum := t.summary.sum
    final := some t.summary }

def gathered (decisions : Nat) (children : List (Summary α)) (t : Tally α) : Tally α :=
  children.foldl absorbed (raised^[decisions] t)

omit [Measure α] in
theorem whileOpen_of_isOpen {t : Tally α} (h : t.IsOpen) (action : Action) :
    t.whileOpen action = .ok t := by
  rw [IsOpen] at h
  simp [whileOpen, isFinished, h]

theorem increment_of_isOpen {t : Tally α} (h : t.IsOpen) : t.increment = .ok t.raised := by
  rw [increment, whileOpen_of_isOpen h]
  rfl

theorem incrementBy_of_isOpen {t : Tally α} (h : t.IsOpen) (times : Nat) :
    t.incrementBy times = .ok (raised^[times] t) := by
  induction times generalizing t with
  | zero => rfl
  | succ times ih =>
    rw [incrementBy, increment_of_isOpen h, Function.iterate_succ_apply]
    exact ih h

theorem absorb_of_isOpen {t : Tally α} (h : t.IsOpen) (child : Summary α) :
    t.absorb child = .ok (t.absorbed child) := by
  rw [absorb, whileOpen_of_isOpen h]
  rfl

theorem finish_of_isOpen {t : Tally α} (h : t.IsOpen) : t.finish = .ok (t.summary, t.ended) := by
  rw [finish, whileOpen_of_isOpen h]
  rfl

theorem commute_raised_absorbed (child : Summary α) :
    Function.Commute raised (fun t : Tally α => t.absorbed child) :=
  fun _ => rfl

theorem absorbed_raised (decisions : Nat) (child : Summary α) (t : Tally α) :
    (raised^[decisions] t).absorbed child = raised^[decisions] (t.absorbed child) :=
  ((commute_raised_absorbed child).iterate_left decisions t).symm

theorem foldl_absorbed_raised (decisions : Nat) (children : List (Summary α)) (t : Tally α) :
    children.foldl absorbed (raised^[decisions] t)
      = raised^[decisions] (children.foldl absorbed t) := by
  induction children generalizing t with
  | nil => rfl
  | cons child children ih => rw [List.foldl_cons, absorbed_raised, ih, List.foldl_cons]

theorem gathered_gathered (t : Tally α) (d d' : Nat) (cs cs' : List (Summary α)) :
    (t.gathered d cs).gathered d' cs' = t.gathered (d + d') (cs ++ cs') := by
  simp only [gathered, List.foldl_append]
  rw [← foldl_absorbed_raised, ← Function.iterate_add_apply, Nat.add_comm]

theorem final_raised (decisions : Nat) (t : Tally α) : (raised^[decisions] t).final = t.final := by
  induction decisions generalizing t with
  | zero => rfl
  | succ decisions ih => rw [Function.iterate_succ_apply, ih]; rfl

theorem final_gathered (t : Tally α) (decisions : Nat) (children : List (Summary α)) :
    (t.gathered decisions children).final = t.final := by
  rw [gathered, ← final_raised decisions t]
  induction children generalizing t with
  | nil => rfl
  | cons child children ih =>
    rw [List.foldl_cons, absorbed_raised, ih, final_raised, final_raised]
    rfl

theorem IsOpen.gathered {t : Tally α} (h : t.IsOpen) (decisions : Nat)
    (children : List (Summary α)) : (t.gathered decisions children).IsOpen :=
  (final_gathered t decisions children).trans h

theorem foldl_absorbed (t : Tally α) (children : List (Summary α)) :
    children.foldl absorbed t = { t with
      sum := (children.map (·.sum)).foldl Measure.add t.sum
      count := (children.map (·.count)).foldl (· + ·) t.count
      least := (children.map (·.least)).foldl Measure.least t.least
      greatest := (children.map (·.greatest)).foldl Measure.greatest t.greatest } := by
  induction children generalizing t with
  | nil => rfl
  | cons child children ih => rw [List.foldl_cons, ih]; rfl

theorem raised_eq (decisions : Nat) (t : Tally α) :
    raised^[decisions] t
      = { t with cyclomatic := (Measure.add · Measure.one)^[decisions] t.cyclomatic } := by
  induction decisions generalizing t with
  | zero => rfl
  | succ decisions ih => rw [Function.iterate_succ_apply, ih, Function.iterate_succ_apply]; rfl

theorem cyclomatic_gathered_start (decisions : Nat) (children : List (Summary α)) :
    (start.gathered decisions children).cyclomatic = Measure.complexity decisions := by
  rw [gathered, foldl_absorbed, raised_eq]
  rfl

theorem summary_gathered_start (decisions : Nat) (children : List (Summary α)) :
    (start.gathered decisions children).summary
      = .over (Measure.complexity decisions) children := by
  rw [gathered, foldl_absorbed, raised_eq]
  rfl

end Tally

end ScopeComplexity
