import ScopeComplexity.Proofs.Statistics.Tally
import ScopeComplexity.Scope.Opening

namespace ScopeComplexity.Opening

open Syntax

variable {α : Type} [Measure α]

def IsOpen (o : Opening α) : Prop := o.tally.IsOpen

def grown (decisions : Nat) (inner : List (Scope α)) (o : Opening α) : Opening α :=
  { o with
    tally := o.tally.gathered decisions (inner.map (·.metrics))
    adopted := inner.reverse ++ o.adopted }

def finished (o : Opening α) : Scope α where
  name := o.name
  kind := o.kind
  startLine := o.startLine
  endLine := o.endLine
  cyclomatic := o.tally.cyclomatic
  metrics := o.tally.summary
  scopes := o.adopted.reverse

def folded : Nat → List (Opening α) → List (Opening α)
  | count + 1, inner :: outer :: rest => folded count (outer.grown 0 [inner.finished] :: rest)
  | _, opened => opened

theorem isOpen_ofNode (n : Node) (kind : ScopeKind) (name : Option String) :
    (ofNode n kind name : Opening α).IsOpen := rfl

theorem IsOpen.grown {o : Opening α} (h : o.IsOpen) (decisions : Nat) (inner : List (Scope α)) :
    (o.grown decisions inner).IsOpen :=
  Tally.IsOpen.gathered h decisions _

@[simp] theorem grown_zero_nil (o : Opening α) : o.grown 0 [] = o := rfl

theorem grown_grown (o : Opening α) (d d' : Nat) (inner inner' : List (Scope α)) :
    (o.grown d inner).grown d' inner' = o.grown (d + d') (inner ++ inner') := by
  simp [grown, Tally.gathered_gathered]

theorem increment_of_isOpen {o : Opening α} (h : o.IsOpen) : o.increment = .ok (o.grown 1 []) := by
  rw [increment, Tally.increment_of_isOpen h]
  rfl

theorem adopt_of_isOpen {o : Opening α} (h : o.IsOpen) (child : Scope α) :
    o.adopt child = .ok (o.grown 0 [child]) := by
  rw [adopt, Tally.absorb_of_isOpen h]
  rfl

theorem finish_of_isOpen {o : Opening α} (h : o.IsOpen) :
    o.finish = .ok (o.finished, { o with tally := o.tally.ended }) := by
  rw [finish, Tally.finish_of_isOpen h]
  rfl

theorem closeOne_of_isOpen {inner outer : Opening α} (hi : inner.IsOpen) (ho : outer.IsOpen)
    (rest : List (Opening α)) :
    closeOne (inner :: outer :: rest) = ⟨outer.grown 0 [inner.finished] :: rest, none⟩ := by
  simp only [closeOne, finish_of_isOpen hi, adopt_of_isOpen ho]

@[simp] theorem folded_zero (opened : List (Opening α)) : folded 0 opened = opened := by
  cases opened <;> rfl

theorem isOpen_folded {opened : List (Opening α)} (h : ∀ o ∈ opened, o.IsOpen) (count : Nat) :
    ∀ o ∈ folded count opened, o.IsOpen := by
  induction count, opened using folded.induct with
  | case1 count inner outer rest ih =>
    rw [List.forall_mem_cons, List.forall_mem_cons] at h
    exact ih (List.forall_mem_cons.2 ⟨h.2.1.grown 0 _, h.2.2⟩)
  | case2 count opened hshort => rwa [folded.eq_2 count opened hshort]

theorem length_folded {count : Nat} {opened : List (Opening α)} (h : count < opened.length) :
    (folded count opened).length = opened.length - count := by
  induction count generalizing opened with
  | zero => simp
  | succ count ih =>
    match opened, h with
    | [_], h => simp at h
    | inner :: outer :: rest, h =>
      rw [folded, ih (by simpa using h)]
      simp

theorem folded_add {a b : Nat} {opened : List (Opening α)} (h : a + b < opened.length) :
    folded (a + b) opened = folded b (folded a opened) := by
  induction a generalizing opened with
  | zero => simp
  | succ a ih =>
    match opened, h with
    | [_], h => simp at h
    | inner :: outer :: rest, h =>
      rw [Nat.succ_add, folded, folded, ih (by simp at h ⊢; omega)]

theorem close_eq_folded {count : Nat} {opened : List (Opening α)} (h : ∀ o ∈ opened, o.IsOpen)
    (hcount : count < opened.length) : close count opened = ⟨folded count opened, none⟩ := by
  induction count generalizing opened with
  | zero => simp [close]
  | succ count ih =>
    match opened, hcount with
    | [_], hcount => simp at hcount
    | inner :: outer :: rest, hcount =>
      rw [List.forall_mem_cons, List.forall_mem_cons] at h
      rw [close, closeOne_of_isOpen h.1 h.2.1]
      exact ih (List.forall_mem_cons.2 ⟨h.2.1.grown 0 _, h.2.2⟩) (by simpa using hcount)

end ScopeComplexity.Opening
