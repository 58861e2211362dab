import Mathlib.Data.List.Induction
import ScopeComplexity.Proofs.Statistics.Values

namespace ScopeComplexity

namespace Tally

inductive Call (α : Type) where
  | increment
  | merge (child : Summary α)
  | finalize

namespace Call

variable {α : Type}

def action : Call α → Action
  | .increment => .increment
  | .merge _ => .merge
  | .finalize => .finalize

def decisions : Call α → Nat
  | .increment => 1
  | _ => 0

def given : Call α → List (Summary α)
  | .merge child => [child]
  | _ => []

end Call

variable {α : Type} [Measure α]

def answer (t : Tally α) : Call α → Except StateError (Option (Summary α) × Tally α)
  | .increment => t.increment.map (none, ·)
  | .merge child => (t.absorb child).map (none, ·)
  | .finalize => t.finish.map fun finished => (some finished.1, finished.2)

/-- Assignments to the fields of a tally, which stand if one is refused after them. -/
abbrev Assigning (α β : Type) := EStateM StateError (Tally α) β

def ensureOpen (action : Action) : Assigning α Unit := do
  if (← get).isFinished then throw (.finalized action)

def assign : Call α → Assigning α (Option (Summary α))
  | .increment => do
    modify fun t => { t with cyclomatic := Measure.add t.cyclomatic Measure.one }
    return none
  | .merge child => do
    modify fun t => { t with greatest := Measure.greatest t.greatest child.greatest }
    modify fun t => { t with least := Measure.least t.least child.least }
    modify fun t => { t with sum := Measure.add t.sum child.sum }
    modify fun t => { t with count := t.count + child.count }
    return none
  | .finalize => do
    modify fun t => { t with greatest := Measure.greatest t.greatest t.cyclomatic }
    modify fun t => { t with least := Measure.least t.least t.cyclomatic }
    modify fun t => { t with sum := Measure.add t.sum t.cyclomatic }
    let t ← get
    let s : Summary α := { sum := t.sum, count := t.count, least := t.least, greatest := t.greatest }
    set { t with final := some s }
    return some s

def perform (c : Call α) : Assigning α (Option (Summary α)) := do
  ensureOpen c.action
  assign c

def leftBy {β : Type} : EStateM.Result StateError (Tally α) β → Tally α
  | .ok _ t => t
  | .error _ t => t

def after (calls : List (Call α)) : Tally α := calls.foldl (fun t c => leftBy (perform c t)) start

def decisionsOf (calls : List (Call α)) : Nat := (calls.map Call.decisions).sum

def givenBy (calls : List (Call α)) : List (Summary α) := calls.flatMap Call.given

def called (t : Tally α) : Call α → Tally α
  | .increment => t.raised
  | .merge child => t.absorbed child
  | .finalize => t.ended

def returned (t : Tally α) : Call α → Option (Summary α)
  | .finalize => some t.summary
  | _ => none

variable {t : Tally α} {calls : List (Call α)}

omit [Measure α] in
theorem isOpen_iff : t.IsOpen ↔ t.isFinished = false := by
  rw [IsOpen, isFinished, Option.isSome_eq_false_iff, Option.isNone_iff_eq_none]

theorem answer_of_isOpen (h : t.IsOpen) (c : Call α) : t.answer c = .ok (t.returned c, t.called c) := by
  cases c with
  | increment => rw [answer, increment_of_isOpen h]; rfl
  | merge child => rw [answer, absorb_of_isOpen h]; rfl
  | finalize => rw [answer, finish_of_isOpen h]; rfl

theorem answer_of_isFinished (h : t.isFinished = true) (c : Call α) :
    t.answer c = .error (.finalized c.action) := by
  have refuses (action : Action) : t.whileOpen action = .error (.finalized action) := by
    rw [whileOpen, h]
    rfl
  cases c with
  | increment => rw [answer, increment, refuses]; rfl
  | merge child => rw [answer, absorb, refuses]; rfl
  | finalize => rw [answer, finish, refuses]; rfl

theorem assign_eq (c : Call α) (t : Tally α) : assign c t = .ok (t.returned c) (t.called c) := by
  cases c <;> rfl

theorem perform_of_isOpen (h : t.IsOpen) (c : Call α) :
    perform c t = .ok (t.returned c) (t.called c) := by
  have passes : ensureOpen c.action t = .ok () t := by
    change (if t.isFinished then throw (.finalized c.action) else pure () : Assigning α Unit) t = _
    rw [isOpen_iff.1 h]
    rfl
  rw [perform]
  change EStateM.bind _ _ t = _
  rw [EStateM.bind, passes]
  exact assign_eq c t

theorem perform_of_isFinished (h : t.isFinished = true) (c : Call α) :
    perform c t = .error (.finalized c.action) t := by
  have refuses : ensureOpen c.action t = .error (.finalized c.action) t := by
    change (if t.isFinished then throw (.finalized c.action) else pure () : Assigning α Unit) t = _
    rw [h]
    rfl
  rw [perform]
  change EStateM.bind _ _ t = _
  rw [EStateM.bind, refuses]

theorem isFinished_called (h : t.IsOpen) (c : Call α) : (t.called c).isFinished = true ↔ c = .finalize := by
  cases c with
  | increment =>
    have opened : (t.called .increment).isFinished = false := isOpen_iff.1 h
    simp [opened]
  | merge child =>
    have opened : (t.called (.merge child)).isFinished = false := isOpen_iff.1 h
    simp [opened]
  | finalize => simp [called, isFinished, ended]

theorem after_concat (calls : List (Call α)) (c : Call α) :
    after (calls ++ [c]) = leftBy (perform c (after calls)) := by
  rw [after, List.foldl_append]
  rfl

theorem isFinished_after_iff : (after calls).isFinished = true ↔ .finalize ∈ calls := by
  induction calls using List.reverseRecOn with
  | nil => simp [after, start, isFinished]
  | append_singleton calls c ih =>
    rw [after_concat, List.mem_append, List.mem_singleton]
    cases finished : (after calls).isFinished with
    | true =>
      rw [perform_of_isFinished finished]
      exact iff_of_true finished (Or.inl (ih.1 finished))
    | false =>
      have isOpen := isOpen_iff.2 finished
      rw [perform_of_isOpen isOpen, leftBy, isFinished_called isOpen, ← ih, finished]
      simp [eq_comm]

theorem isOpen_after (opened : .finalize ∉ calls) : (after calls).IsOpen :=
  isOpen_iff.2 (Bool.eq_false_iff.2 (isFinished_after_iff.not.2 opened))

theorem after_eq_gathered (opened : .finalize ∉ calls) :
    after calls = start.gathered (decisionsOf calls) (givenBy calls) := by
  induction calls using List.reverseRecOn with
  | nil => rfl
  | append_singleton calls c ih =>
    rw [List.mem_append, List.mem_singleton, not_or] at opened
    have one : (after calls).called c = (after calls).gathered c.decisions c.given := by
      cases c with
      | increment => rfl
      | merge child => rfl
      | finalize => exact absurd rfl opened.2
    rw [after_concat, perform_of_isOpen (isOpen_after opened.1), leftBy, one, ih opened.1,
      gathered_gathered]
    simp [decisionsOf, givenBy]

theorem perform_finalize (opened : .finalize ∉ calls) :
    let s := Summary.over (Measure.complexity (decisionsOf calls)) (givenBy calls)
    ∃ t, perform .finalize (after calls) = .ok (some s) t ∧ t.final = some s := by
  intro s
  have told : (after calls).summary = s := by
    rw [after_eq_gathered opened, summary_gathered_start]
  rw [perform_of_isOpen (isOpen_after opened), returned, told]
  refine ⟨_, rfl, ?_⟩
  rw [called, ended, told]

end Tally

theorem isLeast_foldl_min {β : Type} [LinearOrder β] (first : β) (others : List β) :
    IsLeast (insert first {x | x ∈ others}) (others.foldl min first) := by
  induction others using List.reverseRecOn with
  | nil => simp
  | append_singleton others x ih =>
    rw [List.foldl_append, List.foldl_cons, List.foldl_nil, min_comm]
    have same : insert first {y | y ∈ others ++ [x]} = insert x (insert first {y | y ∈ others}) := by
      ext y
      simp only [Set.mem_insert_iff, Set.mem_ofPred_eq, List.mem_append, List.mem_singleton]
      tauto
    rw [same]
    exact ih.insert x

theorem isLeast_min_foldl {ι β : Type} [LinearOrder β] {own first : β} {given : List ι} {low high : ι → β}
    (out : own ≤ first) (ordered : ∀ c ∈ given, low c ≤ high c) :
    IsLeast (insert own {x | ∃ c ∈ given, x = low c ∨ x = high c})
      (min ((given.map low).foldl min first) own) := by
  have inner := isLeast_foldl_min first (given.map low)
  generalize (given.map low).foldl min first = least at inner
  refine ⟨?_, ?_⟩
  · rcases inner.1 with start | member
    · rw [start, min_eq_right out]
      exact Set.mem_insert _ _
    · obtain ⟨c, member, told⟩ := List.mem_map.1 member
      rcases min_choice least own with same | same
      · exact Or.inr ⟨c, member, Or.inl (same.trans told.symm)⟩
      · exact Or.inl same
  · rintro x (rfl | ⟨c, member, end_of⟩)
    · exact min_le_right _ _
    · have below : min least own ≤ low c :=
        (min_le_left _ _).trans (inner.2 (Or.inr (List.mem_map_of_mem member)))
      rcases end_of with rfl | rfl
      · exact below
      · exact below.trans (ordered c member)

namespace Summary

def extrema (own : Rat) (given : List (Summary Rat)) : Set Rat :=
  insert own {x | ∃ c ∈ given, x = c.least ∨ x = c.greatest}

structure Tells (s : Summary Rat) (decisions : Nat) (given : List (Summary Rat)) : Prop where
  sum : s.sum = 1 + decisions + (given.map (·.sum)).sum
  count : s.count = 1 + (given.map (·.count)).sum
  least : IsLeast (extrema (1 + decisions) given) s.least
  greatest : IsGreatest (extrema (1 + decisions) given) s.greatest

theorem isLeast_over {own : Rat} {given : List (Summary Rat)} (small : own ≤ Measure.ceiling)
    (ordered : ∀ c ∈ given, c.least ≤ c.greatest) :
    IsLeast (extrema own given) (Summary.over own given).least := by
  have min_eq : (Measure.least : Rat → Rat → Rat) = min := funext₂ Measure.least_eq
  rw [Summary.over, min_eq]
  exact isLeast_min_foldl small ordered

theorem isGreatest_over {own : Rat} {given : List (Summary Rat)} (nonneg : 0 ≤ own)
    (ordered : ∀ c ∈ given, c.least ≤ c.greatest) :
    IsGreatest (extrema own given) (Summary.over own given).greatest := by
  have max_eq : (Measure.greatest : Rat → Rat → Rat) = max := funext₂ Measure.greatest_eq
  rw [Summary.over, max_eq, extrema]
  simp only [or_comm (b := _ = greatest _)]
  exact isLeast_min_foldl (β := Ratᵒᵈ) nonneg ordered

theorem tells_over {decisions : Nat} {given : List (Summary Rat)}
    (small : (1 + decisions : Rat) ≤ Measure.ceiling) (ordered : ∀ c ∈ given, c.least ≤ c.greatest) :
    (Summary.over (Measure.complexity decisions) given).Tells decisions given := by
  rw [Measure.complexity_eq]
  constructor
  · change (given.map (·.sum)).foldl (· + ·) 0 + (1 + decisions : Rat) = _
    rw [← List.sum_eq_foldl, add_comm]
  · exact count_over _ given
  · exact isLeast_over small ordered
  · exact isGreatest_over (add_nonneg zero_le_one (Nat.cast_nonneg _)) ordered

end Summary

namespace Tally

theorem gathered_perm (decisions : Nat) {given given' : List (Summary Rat)} (h : given.Perm given') :
    (start.gathered decisions given : Tally Rat) = start.gathered decisions given' := by
  rw [gathered, gathered, foldl_absorbed, foldl_absorbed, (h.map _).foldl_eq, (h.map _).foldl_eq,
    (h.map _).foldl_eq, (h.map _).foldl_eq]

/-- A tally answers all calls up to the one that finishes it, and refuses all after that without a change. The order
in which decisions and summaries come before leaves no trace, and the summary that it is finished with tells of
all of them; on doubles too it tells of the summaries in their order, wherever the decisions come. -/
theorem life_cycle :
    (∀ {α : Type} [Measure α] (calls : List (Call α)) (c : Call α),
      (.finalize ∉ calls → ∃ returned t, (after calls).answer c = .ok (returned, t) ∧
        perform c (after calls) = .ok returned t) ∧
      (.finalize ∈ calls → (after calls).answer c = .error (.finalized c.action) ∧
        perform c (after calls) = .error (.finalized c.action) (after calls))) ∧
    (∀ {α : Type} [Measure α] (calls : List (Call α)), .finalize ∉ calls →
      let s := Summary.over (Measure.complexity (decisionsOf calls)) (givenBy calls)
      ∃ t, perform .finalize (after calls) = .ok (some s) t ∧ t.final = some s) ∧
    (∀ calls calls' : List (Call Rat), .finalize ∉ calls → .finalize ∉ calls' →
      decisionsOf calls = decisionsOf calls' → (givenBy calls).Perm (givenBy calls') →
        after calls = after calls') ∧
    ∀ calls : List (Call Rat), .finalize ∉ calls → (∀ c ∈ givenBy calls, c.least ≤ c.greatest) →
      (1 + decisionsOf calls : Rat) ≤ Measure.ceiling →
        ∃ s t, perform .finalize (after calls) = .ok (some s) t ∧ t.final = some s ∧
          s.Tells (decisionsOf calls) (givenBy calls) := by
  refine ⟨fun calls c => ⟨fun opened => ?_, fun finished => ?_⟩, fun calls => perform_finalize, ?_, ?_⟩
  · have isOpen := isOpen_after opened
    exact ⟨_, _, answer_of_isOpen isOpen c, perform_of_isOpen isOpen c⟩
  · have isFinished := isFinished_after_iff.2 finished
    exact ⟨answer_of_isFinished isFinished c, perform_of_isFinished isFinished c⟩
  · intro calls calls' opened opened' decisions given
    rw [after_eq_gathered opened, after_eq_gathered opened', decisions, gathered_perm _ given]
  · intro calls opened ordered small
    obtain ⟨t, told, final⟩ := perform_finalize opened
    exact ⟨_, t, told, final, Summary.tells_over small ordered⟩

theorem life_cycle_of_interleaved :
    let first : Summary Rat := ⟨7, 3, 1, 4⟩
    let second : Summary Rat := ⟨2, 1, 2, 2⟩
    let whole : Summary Rat := ⟨12, 5, 1, 4⟩
    let calls : List (Call Rat) := [.increment, .merge first, .increment, .merge second]
    let calls' : List (Call Rat) := [.merge second, .merge first, .increment, .increment]
    let late : List (Call Rat) := calls ++ [.finalize, .increment]
    (.finalize ∉ calls ∧ .finalize ∉ calls' ∧ .finalize ∈ late) ∧ after calls = after calls' ∧
      (∃ t, perform .finalize (after calls) = .ok (some whole) t ∧ t.final = some whole) ∧
      whole.Tells 2 [first, second] ∧
      perform (.merge first) (after late) = .error (.finalized .merge) (after late) := by
  intro first second whole calls calls' late
  obtain ⟨answers, finishes, orders, tells⟩ := life_cycle
  have opened : .finalize ∉ calls := by simp [calls]
  have opened' : .finalize ∉ calls' := by simp [calls']
  have finished : .finalize ∈ late := by simp [late]
  have turned : (givenBy calls).Perm (givenBy calls') := List.Perm.swap second first []
  have sums_up : Summary.over (Measure.complexity (decisionsOf calls)) (givenBy calls) = whole := by
    decide +kernel
  have ordered : ∀ c ∈ givenBy calls, c.least ≤ c.greatest := by decide
  have small : (1 + decisionsOf calls : Rat) ≤ Measure.ceiling := by decide +kernel
  obtain ⟨t, told, final⟩ := finishes calls opened
  obtain ⟨s, t', told', -, sums⟩ := tells calls opened ordered small
  rw [sums_up] at told final
  cases told.symm.trans told'
  exact ⟨⟨opened, opened', finished⟩, orders calls calls' opened opened' rfl turned, ⟨t, told, final⟩, sums,
    ((answers late (.merge first)).2 finished).2⟩

end Tally

end ScopeComplexity
