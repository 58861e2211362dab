import ScopeComplexity.Proofs.Scope.Rounding

namespace ScopeComplexity.Opening

variable {α : Type} [Measure α]

structure FinishesWith (o : Opening α) (last : List (Scope α)) (s : Scope α) : Prop where
  name : s.name = o.name
  kind : s.kind = o.kind
  lines : (s.startLine, s.endLine) = (o.startLine, o.endLine)
  cyclomatic : s.cyclomatic = o.tally.cyclomatic
  metrics : s.metrics = (o.tally.gathered 0 (last.map (·.metrics))).summary
  scopes : s.scopes = o.adopted.reverse ++ last

/-- Finished scopes, the innermost first, each the last one inside the next. -/
inductive Nests : List (Opening α) → List (Scope α) → Prop
  | nil : Nests [] []
  | around {closed : List (Opening α)} {last : List (Scope α)} {o : Opening α} {s : Scope α}
      (inner : Nests closed last) (outer : FinishesWith o last s) : Nests (closed ++ [o]) [s]

inductive Leaves (count : Nat) : List (Opening α) → List (Opening α) → Prop
  | intro (closed : List (Opening α)) (outer : Opening α) (lower : List (Opening α))
      {last : List (Scope α)} (length : closed.length = count) (nests : Nests closed last)
      (single : last.length = min 1 count) :
      Leaves count (closed ++ outer :: lower) (outer.grown 0 last :: lower)

theorem finishesWith (o : Opening α) (last : List (Scope α)) :
    o.FinishesWith last (o.grown 0 last).finished where
  name := rfl
  kind := rfl
  lines := rfl
  cyclomatic := by simp [finished, grown, Tally.gathered, Tally.foldl_absorbed]
  metrics := rfl
  scopes := by simp [finished, grown]

theorem Nests.length_eq {closed : List (Opening α)} {last : List (Scope α)} (h : Nests closed last) :
    last.length = min 1 closed.length := by
  cases h with
  | nil => rfl
  | around inner outer => simp

theorem exists_nests_folded (closed : List (Opening α)) (outer : Opening α) (lower : List (Opening α)) :
    ∃ last, Nests closed last ∧
      folded closed.length (closed ++ outer :: lower) = outer.grown 0 last :: lower := by
  induction closed using List.reverseRecOn generalizing outer lower with
  | nil => exact ⟨[], .nil, by simp⟩
  | append_singleton closed o ih =>
    obtain ⟨last, nests, folds⟩ := ih o (outer :: lower)
    have enough : closed.length + 1 < (closed ++ o :: outer :: lower).length := by simp
    refine ⟨_, nests.around (o.finishesWith last), ?_⟩
    rw [List.append_assoc, List.singleton_append, List.length_append, List.length_singleton,
      folded_add enough, folds, folded, folded_zero]

section Stack

variable {stack : List (Opening α)} {count : Nat}

theorem leaves_folded (few : count < stack.length) : Leaves count stack (folded count stack) := by
  obtain ⟨outer, lower, rest⟩ : ∃ outer lower, stack.drop count = outer :: lower :=
    List.exists_cons_of_ne_nil (List.drop_eq_nil_iff.not.2 few.not_ge)
  have length : (stack.take count).length = count := List.length_take_of_le few.le
  have split : stack = stack.take count ++ outer :: lower := rest ▸ (List.take_append_drop count stack).symm
  obtain ⟨last, nests, folds⟩ := exists_nests_folded (stack.take count) outer lower
  rw [← split, length] at folds
  rw [folds]
  conv => arg 2; rw [split]
  exact .intro _ outer lower length nests (nests.length_eq.trans (by rw [length]))

theorem folded_of_length_le (many : stack.length ≤ count + 1) :
    folded count stack = folded (stack.length - 1) stack := by
  induction count generalizing stack with
  | zero =>
    have alone : stack.length - 1 = 0 := by omega
    rw [alone]
  | succ count ih =>
    match stack with
    | [] => rfl
    | [_] => rfl
    | inner :: outer :: rest =>
      rw [folded, ih (by simpa using many)]
      rfl

theorem fault_close (isOpen : ∀ o ∈ stack, o.IsOpen) (count : Nat) :
    (close count stack).fault = if 0 < count ∧ stack.length ≤ count then some .unitStillOpen else none := by
  induction count generalizing stack with
  | zero => rfl
  | succ count ih =>
    match stack with
    | [] => simp [close, closeOne]
    | [_] => simp [close, closeOne]
    | inner :: outer :: rest =>
      rw [List.forall_mem_cons, List.forall_mem_cons] at isOpen
      rw [close, closeOne_of_isOpen isOpen.1 isOpen.2.1]
      refine (ih (List.forall_mem_cons.2 ⟨isOpen.2.1.grown 0 _, isOpen.2.2⟩)).trans ?_
      simp only [List.length_cons]
      congr 1
      rw [eq_iff_iff]
      omega

theorem close_add (first second : Nat) (stack : List (Opening α)) :
    close (first + second) stack =
      match close first stack with
      | ⟨opened, none⟩ => close second opened
      | stopped => stopped := by
  induction first generalizing stack with
  | zero => rw [Nat.zero_add, close]
  | succ first ih =>
    rw [Nat.succ_add, close, close]
    rcases closeOne stack with ⟨opened, _ | fault⟩
    · exact ih opened
    · rfl

structure Closes (k : Int) (stack : List (Opening α)) (closing : Closing α) : Prop where
  fault : closing.fault = if 0 < k ∧ (stack.length : Int) - 1 < k then some .unitStillOpen else none
  isOpen : ∀ o ∈ closing.opened, o.IsOpen
  length : closing.fault = none → (closing.opened.length : Int) = stack.length - max k 0
  untouched : k ≤ 0 → closing.opened = stack
  nested : closing.fault = none → 0 < k → Leaves k.toNat stack closing.opened
  unit : closing.fault ≠ none → stack ≠ [] →
    closing.opened.length = 1 ∧ Leaves (stack.length - 1) stack closing.opened
  empty : stack = [] → closing.opened = []
  counts : summed Opening.count closing.opened = summed Opening.count stack

theorem closes (isOpen : ∀ o ∈ stack, o.IsOpen) (k : Int) : Closes k stack (close k.toNat stack) := by
  have opened := opened_close isOpen k.toNat
  have fault : (close k.toNat stack).fault =
      if 0 < k ∧ (stack.length : Int) - 1 < k then some .unitStillOpen else none := by
    rw [fault_close isOpen]
    congr 1
    rw [eq_iff_iff]
    omega
  have faulty_iff : (close k.toNat stack).fault ≠ none ↔ 0 < k ∧ (stack.length : Int) - 1 < k := by
    rw [fault, Ne, ite_eq_right_iff]
    simp
  have untouched : k ≤ 0 → (close k.toNat stack).opened = stack := by
    intro none
    rw [opened, Int.toNat_of_nonpos none, folded_zero]
  constructor
  · exact fault
  · rw [opened]
    exact isOpen_folded isOpen _
  · intro sound
    have enough := faulty_iff.not_right.1 sound
    by_cases none : k ≤ 0
    · rw [untouched none]
      omega
    · rw [opened, length_folded (by omega)]
      omega
  · exact untouched
  · intro sound positive
    have enough := faulty_iff.not_right.1 sound
    rw [opened]
    exact leaves_folded (by omega)
  · intro faulty nonempty
    have many := faulty_iff.1 faulty
    have some := List.length_pos_iff.2 nonempty
    rw [opened, folded_of_length_le (by omega), length_folded (by omega)]
    exact ⟨by omega, leaves_folded (by omega)⟩
  · rintro rfl
    rw [opened]
    cases k.toNat <;> rfl
  · rw [opened, conserved_count.folded]

end Stack

/-- Closing removes as many scopes as it is asked for, but never the unit, and nests them into each other. The counts
and the totals on the stack stay the same, also when the unit stops it. On doubles they are exact as long as they are
whole and small enough. -/
theorem close_conserves :
    (∀ {α : Type} [Measure α] (stack : List (Opening α)), (∀ o ∈ stack, o.IsOpen) →
      (∀ k : Int, Closes k stack (close k.toNat stack)) ∧
      ∀ j k : Int, 0 ≤ j → 0 ≤ k → close (j + k).toNat stack =
        match close j.toNat stack with
        | ⟨opened, none⟩ => close k.toNat opened
        | stopped => stopped) ∧
    (∀ stack : List (Opening Rat), (∀ o ∈ stack, o.IsOpen) → ∀ k : Int,
      summed total (close k.toNat stack).opened = summed total stack) ∧
    ∀ (exact : List (Opening Rat)) (stack : List (Opening Float)) (limit : Nat),
      (∀ o ∈ exact, o.IsOpen) → (∀ o ∈ stack, o.IsOpen) → Mirrored Decimal.whole exact stack →
        summed total exact ≤ limit → limit < 2 ^ 53 → ∀ k : Int,
          Mirrored Decimal.whole (close k.toNat exact).opened (close k.toNat stack).opened := by
  refine ⟨fun stack isOpen => ⟨closes isOpen, ?_⟩, ?_, ?_⟩
  · intro j k first second
    rw [Int.toNat_add first second]
    exact close_add j.toNat k.toNat stack
  · intro stack isOpen k
    rw [opened_close isOpen, conserved_total.folded]
  · intro exact stack limit isOpen isOpen' mirrored within small k
    rw [opened_close isOpen, opened_close isOpen']
    exact mirrored.folded (Measure.counts_float small) within k.toNat

theorem close_conserves_of_functions :
    let unit (α : Type) [Measure α] : Opening α := ofNode (.node { kind := "module" } []) .unit none
    let function (α : Type) [Measure α] (name : String) : Opening α :=
      ofNode (.node { kind := "function_definition" } []) .function (some name)
    let stack : List (Opening Rat) := [function Rat "g", function Rat "f", unit Rat]
    ((close 1 stack).fault = none ∧ (close 1 stack).opened.length = 2 ∧
      Leaves 1 stack (close 1 stack).opened) ∧
    ((close 5 stack).fault = some .unitStillOpen ∧ (close 5 stack).opened.length = 1 ∧
      Leaves 2 stack (close 5 stack).opened) ∧
    summed count (close 5 stack).opened = 3 ∧ summed total (close 5 stack).opened = 3 ∧
    close 5 stack = close 3 (close 2 stack).opened ∧
    Mirrored Decimal.whole (close 1 [function Rat "f", unit Rat]).opened
      (close 1 [function Float "f", unit Float]).opened := by
  intro unit function stack
  obtain ⟨generic, totals, doubles⟩ := close_conserves
  have isOpen : ∀ o ∈ stack, o.IsOpen := by simp [stack, unit, function, isOpen_ofNode]
  obtain ⟨closes, twice⟩ := generic stack isOpen
  have one : Closes 1 stack (close 1 stack) := closes 1
  have five : Closes 5 stack (close 5 stack) := closes 5
  have unsound : (close 5 stack).fault = some .unitStillOpen := five.fault
  refine ⟨⟨one.fault, ?_, one.nested one.fault (by decide)⟩, ⟨unsound, ?_⟩, five.counts, ?_, ?_, ?_⟩
  · exact Int.ofNat_inj.1 (one.length one.fault)
  · exact five.unit (by simp [unsound]) (by simp [stack])
  · refine (totals stack isOpen 5).trans ?_
    simp [stack, summed, total, unit, function, ofNode, Tally.start, Measure.one, Measure.zero]
    norm_num
  · exact twice 2 3 (by decide) (by decide)
  · have counts := Measure.counts_float (show 2 < 2 ^ 53 by decide)
    refine doubles _ _ 2 ?_ ?_ ?_ ?_ (by decide) 1
    · simp [unit, function, isOpen_ofNode]
    · simp [unit, function, isOpen_ofNode]
    · exact .cons ⟨1, 0, mirrors_ofNode counts _ _ _⟩ (.cons ⟨1, 0, mirrors_ofNode counts _ _ _⟩ .nil)
    · simp [summed, total, unit, function, ofNode, Tally.start, Measure.one, Measure.zero]
      norm_num

end ScopeComplexity.Opening
