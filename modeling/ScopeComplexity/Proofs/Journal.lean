import ScopeComplexity.Journal

namespace ScopeComplexity.Journal

variable {ε α β : Type}

@[simp] theorem result_attempt (x : Journal ε α) : x.attempt.result = .ok x.result := rfl

@[simp] theorem result_bind (x : Journal ε α) (f : α → Journal ε β) :
    (x >>= f).result = x.result >>= fun a => (f a).result := by
  cases x with | mk result events =>
  cases result with
  | error e => rfl
  | ok a => rfl

theorem result_bind_of_ok {x : Journal ε α} {a : α} (h : x.result = .ok a) (f : α → Journal ε β) :
    (x >>= f).result = (f a).result := by
  rw [result_bind, h]
  rfl

theorem result_bind_eq_ok_iff {x : Journal ε α} {f : α → Journal ε β} {b : β} :
    (x >>= f).result = .ok b ↔ ∃ a, x.result = .ok a ∧ (f a).result = .ok b := by
  rw [result_bind]
  cases x.result with
  | error e =>
    constructor
    · intro h
      cases h
    · rintro ⟨a, h, -⟩
      cases h
  | ok a =>
    constructor
    · intro h
      exact ⟨a, rfl, h⟩
    · rintro ⟨a', h, result⟩
      cases h
      exact result

/-- The question has an answer, and it is yes just if `P` holds. -/
def Decides (x : Journal ε Bool) (P : Prop) : Prop := ∃ b, x.result = .ok b ∧ (b = true ↔ P)

section Decides

variable {x y no : Journal ε Bool} {P Q : Prop}

theorem Decides.congr (h : Decides x P) (same : P ↔ Q) : Decides x Q := by
  obtain ⟨b, answer, holds⟩ := h
  exact ⟨b, answer, holds.trans same⟩

theorem decides_of_result {b : Bool} (h : x.result = .ok b) : Decides x (b = true) := ⟨b, h, Iff.rfl⟩

theorem Decides.answered (h : Decides x P) : ∃ b, x.result = .ok b := h.imp fun _ answer => answer.1

theorem Decides.unless (first : Decides x P) (answer : no.result = .ok false) (rest : ¬P → Decides y Q) :
    Decides (do if ← x then no else y) (¬P ∧ Q) := by
  obtain ⟨b, found, holds⟩ := first
  rw [Decides, result_bind_of_ok found]
  cases b with
  | true => exact ⟨false, answer, by simp [holds.1 rfl]⟩
  | false =>
    have other : ¬P := fun first => Bool.false_ne_true (holds.2 first)
    obtain ⟨b, found', holds'⟩ := rest other
    exact ⟨b, found', by simp [holds', other]⟩

theorem Decides.and (first : Decides x P) (answer : no.result = .ok false) (rest : P → Decides y Q) :
    Decides (do if !(← x) then no else y) (P ∧ Q) := by
  obtain ⟨b, found, holds⟩ := first
  rw [Decides, result_bind_of_ok found]
  cases b with
  | true =>
    obtain ⟨b, found', holds'⟩ := rest (holds.1 rfl)
    exact ⟨b, found', by simp [holds', holds.1 rfl]⟩
  | false =>
    have other : ¬P := fun first => Bool.false_ne_true (holds.2 first)
    exact ⟨false, answer, by simp [other]⟩

end Decides

end ScopeComplexity.Journal
