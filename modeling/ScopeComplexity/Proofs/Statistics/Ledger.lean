import Mathlib.Algebra.BigOperators.Group.Multiset.Basic
import ScopeComplexity.Proofs.Statistics.Combine
import ScopeComplexity.Statistics.Book

/-!
What the summaries of a book stand for. A ledger is kept beside a book: it takes the same entries, but knows
nothing of sums and extrema, and writes down for each tally and each summary the complexities
themselves. After any run, every summary in the book is that of the complexities in the ledger
(`run_represents`).
-/

namespace ScopeComplexity

/-- A summary of some complexities, in exact numbers. As the search for the least one starts from the
ceiling, it finds it as soon as any lies below that. -/
structure Summary.Represents (s : Summary Rat) (values : Multiset Rat) : Prop extends s.Covers values where
  nonempty : values ≠ 0
  one_le : ∀ x ∈ values, 1 ≤ x
  isLeast : (∃ x ∈ values, x < Measure.ceiling) →
    IsLeast {x | x ∈ values} s.least ∧ s.least < Measure.ceiling
  mean : ∃ average, s.average = .ok average ∧ 1 ≤ s.least ∧ s.least ≤ average ∧ average ≤ s.greatest

/-- What a tally stands for: its own complexity, and those that it was given by summaries. -/
structure Account where
  own : Rat := 1
  given : Multiset Rat := 0
  closed : Bool := false

namespace Account

def raise : Nat → Account → Option Account
  | 0, a => some a
  | times + 1, a => if a.closed then none else some { a with own := a.own + (times + 1 : Nat) }

def take (values : Multiset Rat) (a : Account) : Option Account :=
  if a.closed then none else some { a with given := a.given + values }

def close (a : Account) : Option (Multiset Rat × Account) :=
  if a.closed then none else some (a.own ::ₘ a.given, { a with closed := true })

end Account

structure Ledger where
  accounts : Keyed Account := []
  summaries : Keyed (Multiset Rat) := []

/-- An entry that makes its summaries from tallies and from other summaries only. -/
def Book.Entry.IsDerived {α : Type} : Book.Entry α → Prop
  | .record .. => False
  | _ => True

namespace Ledger

def putAccount (l : Ledger) (name : String) (a : Account) : Ledger :=
  { l with accounts := l.accounts.put name a }

def putSummary (l : Ledger) (name : String) (values : Multiset Rat) : Ledger :=
  { l with summaries := l.summaries.put name values }

def enter (l : Ledger) : Book.Entry Rat → Option Ledger
  | .start name => some (l.putAccount name {})
  | .increment name times => do
    let a ← l.accounts.get? name
    return l.putAccount name (← a.raise times)
  | .absorb name child => do
    let a ← l.accounts.get? name
    let values ← l.summaries.get? child
    return l.putAccount name (← a.take values)
  | .finish name result => do
    let a ← l.accounts.get? name
    let (values, a) ← a.close
    return (l.putAccount name a).putSummary result values
  | .record .. => none
  | .merge left right result => do
    let values ← l.summaries.get? left
    let values' ← l.summaries.get? right
    return l.putSummary result (values + values')
  | .combine parts result => do
    let values ← parts.mapM l.summaries.get?
    return if values.isEmpty then l else l.putSummary result values.sum

def run (l : Ledger) (entries : List (Book.Entry Rat)) : Ledger :=
  entries.foldl (fun l entry => (l.enter entry).getD l) l

end Ledger

inductive Agree {ε α β : Type} (R : α → β → Prop) : Option α → Except ε β → Prop where
  | taken {a : α} {b : β} (related : R a b) : Agree R (some a) (.ok b)
  | refused {e : ε} : Agree R none (.error e)

namespace Agree

variable {ε ε' α β γ δ : Type} {R : α → β → Prop} {S : γ → δ → Prop}

theorem bind {x : Option α} {y : Except ε β} (h : Agree R x y) {f : α → Option γ}
    {g : β → Except ε δ} (each : ∀ a b, R a b → Agree S (f a) (g b)) :
    Agree S (x >>= f) (y >>= g) := by
  cases h with
  | taken related => exact each _ _ related
  | refused => exact .refused

theorem mapError {x : Option α} {y : Except ε β} (h : Agree R x y) (f : ε → ε') :
    Agree R x (y.mapError f) := by
  cases h with
  | taken related => exact .taken related
  | refused => exact .refused

theorem mapM {κ : Type} {f : κ → Option α} {g : κ → Except ε β} (each : ∀ k, Agree R (f k) (g k))
    (keys : List κ) : Agree (List.Forall₂ R) (keys.mapM f) (keys.mapM g) := by
  induction keys with
  | nil => exact .taken .nil
  | cons k keys ih =>
    rw [List.mapM_cons, List.mapM_cons]
    apply (each k).bind
    intro a b related
    apply ih.bind
    intro as bs relateds
    exact .taken (.cons related relateds)

end Agree

namespace Summary

theorem Covers.represents {s : Summary Rat} {values : Multiset Rat} (h : s.Covers values)
    (one_le : ∀ x ∈ values, 1 ≤ x) : s.Represents values where
  toCovers := h
  nonempty := h.ne_zero
  one_le := one_le
  isLeast := h.isLeast
  mean := ⟨_, h.average, h.one_le_least one_le, h.least_le_mean, h.mean_le_greatest⟩

theorem Represents.merge {a b : Summary Rat} {v w : Multiset Rat} (ha : a.Represents v)
    (hb : b.Represents w) : (a.merge b).Represents (v + w) := by
  apply (ha.toCovers.merge hb.toCovers).represents
  intro x member
  rcases Multiset.mem_add.1 member with member | member
  · exact ha.one_le x member
  · exact hb.one_le x member

theorem exists_combine_represents {values : List (Multiset Rat)} {parts : List (Summary Rat)}
    (h : List.Forall₂ (fun v s => s.Represents v) values parts) (some_part : parts ≠ []) :
    ∃ whole, combine parts = some whole ∧ whole.Represents values.sum := by
  induction h with
  | nil => exact absurd rfl some_part
  | @cons v s values parts represents rest ih =>
    rw [← List.singleton_append, combine_append, List.sum_cons]
    cases rest with
    | nil => exact ⟨s, rfl, by simpa using represents⟩
    | cons _ _ =>
      obtain ⟨whole, combined, all⟩ := ih (List.cons_ne_nil _ _)
      exact ⟨s.merge whole, by rw [combined]; rfl, represents.merge all⟩

end Summary

structure Account.Backs (a : Account) (t : Tally Rat) : Prop where
  own : t.cyclomatic = a.own
  one_le_own : 1 ≤ a.own
  one_le_given : ∀ x ∈ a.given, 1 ≤ x
  whileOpen : a.closed = false → t.IsOpen ∧ t.Holds a.given
  onceClosed : a.closed = true → ∃ s, t.final = some s ∧ s.Represents (a.own ::ₘ a.given)

namespace Account

theorem backs_start : Account.Backs {} Tally.start where
  own := rfl
  one_le_own := le_refl _
  one_le_given := by simp
  whileOpen _ := ⟨rfl, Tally.holds_start⟩
  onceClosed := by simp

variable {a : Account} {t : Tally Rat}

theorem Backs.refuses (h : a.Backs t) (closed : a.closed = true) (action : Tally.Action) :
    t.whileOpen action = .error (.finalized action) := by
  obtain ⟨s, final, -⟩ := h.onceClosed closed
  rw [Tally.whileOpen, Tally.isFinished, final]
  rfl

theorem Backs.raise (h : a.Backs t) (times : Nat) :
    Agree Backs (a.raise times) (t.incrementBy times) := by
  cases times with
  | zero => exact .taken h
  | succ times =>
    cases closed : a.closed with
    | true =>
      rw [Account.raise, closed, Tally.incrementBy, Tally.increment, h.refuses closed]
      exact .refused
    | false =>
      obtain ⟨isOpen, holds⟩ := h.whileOpen closed
      rw [Account.raise, closed, Tally.incrementBy_of_isOpen isOpen]
      refine .taken ⟨?_, ?_, h.one_le_given, fun _ => ⟨?_, holds.raised_iterate _⟩, ?_⟩
      · rw [Tally.raised_eq, Measure.iterate_add_one, h.own]
      · exact h.one_le_own.trans (le_add_of_nonneg_right (Nat.cast_nonneg _))
      · exact (Tally.final_raised _ t).trans isOpen
      · intro closed'
        cases closed'

theorem Backs.take (h : a.Backs t) {values : Multiset Rat} {s : Summary Rat}
    (represents : s.Represents values) : Agree Backs (a.take values) (t.absorb s) := by
  cases closed : a.closed with
  | true =>
    rw [Account.take, closed, Tally.absorb, h.refuses closed]
    exact .refused
  | false =>
    obtain ⟨isOpen, holds⟩ := h.whileOpen closed
    rw [Account.take, closed, Tally.absorb_of_isOpen isOpen]
    refine .taken ⟨h.own, h.one_le_own, ?_, fun _ => ⟨isOpen, holds.absorbed represents.toCovers⟩, ?_⟩
    · intro x member
      rcases Multiset.mem_add.1 member with member | member
      · exact h.one_le_given x member
      · exact represents.one_le x member
    · intro closed'
      cases closed'

theorem Backs.close (h : a.Backs t) :
    Agree (fun closing finish => finish.1.Represents closing.1 ∧ closing.2.Backs finish.2)
      a.close t.finish := by
  cases closed : a.closed with
  | true =>
    rw [Account.close, closed, Tally.finish, h.refuses closed]
    exact .refused
  | false =>
    obtain ⟨isOpen, holds⟩ := h.whileOpen closed
    have nonneg : 0 ≤ t.cyclomatic := h.own ▸ zero_le_one.trans h.one_le_own
    have covers := holds.summary nonneg
    rw [h.own] at covers
    have represents := covers.represents (Multiset.forall_mem_cons.2 ⟨h.one_le_own, h.one_le_given⟩)
    rw [Account.close, closed, Tally.finish_of_isOpen isOpen]
    refine .taken ⟨represents, h.own, h.one_le_own, h.one_le_given, ?_, fun _ => ⟨_, rfl, represents⟩⟩
    intro opened
    cases opened

end Account

namespace Ledger

/-- A ledger and a book have the same names, and what the one has under a name stands for what the other has. -/
structure Backs (l : Ledger) (b : Book Rat) : Prop where
  accounts : ∀ name, Agree Account.Backs (l.accounts.get? name) (b.tally name)
  summaries : ∀ name, Agree (fun values s => s.Represents values) (l.summaries.get? name) (b.summary name)

variable {l : Ledger} {b : Book Rat}

theorem backs_empty : Ledger.Backs {} {} where
  accounts _ := .refused
  summaries _ := .refused

theorem Backs.putAccount (h : l.Backs b) (name : String) {a : Account} {t : Tally Rat}
    (backs : a.Backs t) : (l.putAccount name a).Backs (b.putTally name t) where
  accounts other := by
    have same := h.accounts other
    rw [Book.tally] at same ⊢
    rw [Ledger.putAccount, Book.putTally, Keyed.get?_put, Keyed.get?_put]
    by_cases here : other = name
    · rw [if_pos here, if_pos here]
      exact .taken backs
    · rw [if_neg here, if_neg here]
      exact same
  summaries := h.summaries

theorem Backs.putSummary (h : l.Backs b) (name : String) {values : Multiset Rat} {s : Summary Rat}
    (represents : s.Represents values) : (l.putSummary name values).Backs (b.putSummary name s) where
  accounts := h.accounts
  summaries other := by
    have same := h.summaries other
    rw [Book.summary] at same ⊢
    rw [Ledger.putSummary, Book.putSummary, Keyed.get?_put, Keyed.get?_put]
    by_cases here : other = name
    · rw [if_pos here, if_pos here]
      exact .taken represents
    · rw [if_neg here, if_neg here]
      exact same

theorem Backs.enter (h : l.Backs b) {entry : Book.Entry Rat} (derived : entry.IsDerived) :
    Agree Backs (l.enter entry) (b.enter entry) := by
  cases entry with
  | start name => exact .taken (h.putAccount name Account.backs_start)
  | increment name times =>
    apply (h.accounts name).bind
    intro a t backs
    apply ((backs.raise times).mapError _).bind
    intro a t backs
    exact .taken (h.putAccount name backs)
  | absorb name child =>
    apply (h.accounts name).bind
    intro a t backs
    apply (h.summaries child).bind
    intro values s represents
    apply ((backs.take represents).mapError _).bind
    intro a t backs
    exact .taken (h.putAccount name backs)
  | finish name result =>
    apply (h.accounts name).bind
    intro a t backs
    apply (backs.close.mapError _).bind
    rintro ⟨values, a⟩ ⟨s, t⟩ ⟨represents, backs⟩
    exact .taken ((h.putAccount name backs).putSummary result represents)
  | record name value => exact derived.elim
  | merge left right result =>
    apply (h.summaries left).bind
    intro values s represents
    apply (h.summaries right).bind
    intro values' s' represents'
    exact .taken (h.putSummary result (represents.merge represents'))
  | combine parts result =>
    apply (Agree.mapM h.summaries parts).bind
    intro values summaries represent
    cases represent with
    | nil => exact .taken h
    | cons first rest =>
      obtain ⟨whole, combined, represents⟩ :=
        Summary.exists_combine_represents (.cons first rest) (List.cons_ne_nil _ _)
      rw [combined]
      exact .taken (h.putSummary result represents)

theorem Backs.run {entries : List (Book.Entry Rat)} (derived : ∀ e ∈ entries, e.IsDerived)
    (h : l.Backs b) : (l.run entries).Backs (b.run entries) := by
  induction entries generalizing l b with
  | nil => exact h
  | cons entry entries ih =>
    rw [List.forall_mem_cons] at derived
    have step := h.enter derived.1
    rw [Ledger.run, Book.run, List.foldl_cons, List.foldl_cons]
    generalize l.enter entry = l', b.enter entry = b' at step ⊢
    cases step with
    | taken backs => exact ih derived.2 backs
    | refused => exact ih derived.2 h

end Ledger

/-- After any run of derived entries on an empty book, the book and the ledger have the same names. A summary
is that of the complexities written down for it, none of them below one; an open tally holds those it
was given, and the summary of a finished one is that of these and its own. -/
theorem run_represents {entries : List (Book.Entry Rat)} (derived : ∀ e ∈ entries, e.IsDerived)
    (name : String) :
    Agree (fun values s => s.Represents values)
        ((Ledger.run {} entries).summaries.get? name) ((Book.run {} entries).summary name) ∧
      Agree Account.Backs
        ((Ledger.run {} entries).accounts.get? name) ((Book.run {} entries).tally name) := by
  have backs := Ledger.backs_empty.run derived
  exact ⟨backs.summaries name, backs.accounts name⟩

theorem run_represents_of_repeated :
    let entries : List (Book.Entry Rat) :=
      [.start "f", .increment "f" 2, .finish "f" "f", .start "g", .absorb "g" "f", .absorb "g" "f",
        .finish "g" "g", .increment "g" 1, .merge "f" "g" "both", .combine ["f", "both"] "all"]
    (∀ e ∈ entries, e.IsDerived) ∧
      (Book.run {} entries).summaries.get? "all" = some ⟨13, 5, 1, 3⟩ ∧
      (⟨13, 5, 1, 3⟩ : Summary Rat).Represents {3, 3, 1, 3, 3} := by
  intro entries
  have derived : ∀ e ∈ entries, e.IsDerived := by simp [entries, Book.Entry.IsDerived]
  have book : (Book.run {} entries).summaries.get? "all" = some ⟨13, 5, 1, 3⟩ := by decide +kernel
  have ledger : (Ledger.run {} entries).summaries.get? "all" = some {3, 3, 1, 3, 3} := by decide +kernel
  have agree := (run_represents derived "all").1
  rw [Book.summary, book, ledger] at agree
  cases agree with
  | taken represents => exact ⟨derived, book, represents⟩

end ScopeComplexity
