import Mathlib.Logic.Basic

namespace ScopeComplexity

/-- The first member of a list that fails does so with the given error. -/
inductive FirstFails {α ε : Type} (fails : α → ε → Prop) : List α → ε → Prop where
  | here {a : α} {e : ε} (rest : List α) (own : fails a e) : FirstFails fails (a :: rest) e
  | there {a : α} {e : ε} {rest : List α} (fine : ∀ e, ¬fails a e) (later : FirstFails fails rest e) :
      FirstFails fails (a :: rest) e

variable {α β γ ε ε' : Type} {fails fails' : α → ε → Prop} {a : α} {l l' : List α} {e : ε}

namespace FirstFails

theorem exists_mem (h : FirstFails fails l e) : ∃ a ∈ l, fails a e := by
  induction h with
  | here rest own => exact ⟨_, List.mem_cons_self, own⟩
  | there fine later ih =>
    obtain ⟨a, member, own⟩ := ih
    exact ⟨a, List.mem_cons_of_mem _ member, own⟩

theorem fine_or_exists (fails : α → ε → Prop) (l : List α) :
    (∀ a ∈ l, ∀ e, ¬fails a e) ∨ ∃ e, FirstFails fails l e := by
  induction l with
  | nil => exact .inl (List.forall_mem_nil _)
  | cons a rest ih =>
    by_cases own : ∃ e, fails a e
    · obtain ⟨e, own⟩ := own
      exact .inr ⟨e, .here rest own⟩
    · rw [not_exists] at own
      rcases ih with fine | ⟨e, later⟩
      · exact .inl (List.forall_mem_cons.2 ⟨own, fine⟩)
      · exact .inr ⟨e, .there own later⟩

theorem cons_iff : FirstFails fails (a :: l) e ↔ fails a e ∨ (∀ e, ¬fails a e) ∧ FirstFails fails l e := by
  constructor
  · intro h
    cases h with
    | here _ own => exact .inl own
    | there fine later => exact .inr ⟨fine, later⟩
  · rintro (own | ⟨fine, later⟩)
    · exact .here l own
    · exact .there fine later

theorem congr (same : ∀ a e, fails a e ↔ fails' a e) : FirstFails fails l e ↔ FirstFails fails' l e := by
  have equal : fails = fails' := funext fun a => funext fun e => propext (same a e)
  rw [equal]

theorem append_iff : FirstFails fails (l ++ l') e ↔
    FirstFails fails l e ∨ (∀ a ∈ l, ∀ e, ¬fails a e) ∧ FirstFails fails l' e := by
  induction l with
  | nil =>
    constructor
    · exact fun h => .inr ⟨List.forall_mem_nil _, h⟩
    · rintro (⟨⟨⟩⟩ | ⟨-, h⟩)
      exact h
  | cons a rest ih =>
    rw [List.cons_append, cons_iff, ih, cons_iff, List.forall_mem_cons, and_or_left, or_assoc, and_assoc]

theorem map_iff {f : γ → α} {l : List γ} :
    FirstFails fails (l.map f) e ↔ FirstFails (fun c => fails (f c)) l e := by
  induction l with
  | nil => exact iff_of_false nofun nofun
  | cons c rest ih => rw [List.map_cons, cons_iff, cons_iff, ih]

theorem image_iff {g : ε → ε'} {e' : ε'} :
    FirstFails (fun a e' => ∃ e, fails a e ∧ g e = e') l e' ↔ ∃ e, FirstFails fails l e ∧ g e = e' := by
  induction l with
  | nil =>
    constructor
    · nofun
    · rintro ⟨e, ⟨⟩, -⟩
  | cons a rest ih =>
    have fine : (∀ e', ¬∃ e, fails a e ∧ g e = e') ↔ ∀ e, ¬fails a e :=
      ⟨fun none e own => none (g e) ⟨e, own, rfl⟩, fun none e' ⟨e, own, _⟩ => none e own⟩
    simp only [cons_iff, fine, ih, or_and_right, exists_or, and_assoc, exists_and_left]

end FirstFails

/-- A computation that goes through a list and fails for the first that does. -/
def StopsAtFirst (fails : α → ε → Prop) (l : List α) (x : Except ε β) : Prop :=
  ∀ e, x = .error e ↔ FirstFails fails l e

namespace StopsAtFirst

variable {x : Except ε β} {f : β → Except ε γ} {b : β}

theorem fine_of_ok (h : StopsAtFirst fails l x) (done : x = .ok b) : ∀ a ∈ l, ∀ e, ¬fails a e := by
  rcases FirstFails.fine_or_exists fails l with fine | ⟨e, first⟩
  · exact fine
  · cases done.symm.trans ((h e).2 first)

theorem ok (fails : α → ε → Prop) (b : β) : StopsAtFirst fails [] (.ok b : Except ε β) :=
  fun _ => iff_of_false nofun nofun

theorem single (own : ∀ e, x = .error e ↔ fails a e) : StopsAtFirst fails [a] x := by
  intro e
  rw [own, FirstFails.cons_iff]
  exact ⟨.inl, fun h => h.resolve_right nofun⟩

theorem skip (fine : ∀ e, ¬fails a e) (h : StopsAtFirst fails l x) : StopsAtFirst fails (a :: l) x := by
  intro e
  rw [h e, FirstFails.cons_iff]
  exact ⟨fun later => .inr ⟨fine, later⟩, fun first => (first.resolve_left (fine e)).2⟩

theorem bind (h : StopsAtFirst fails l x) (next : ∀ b, x = .ok b → StopsAtFirst fails l' (f b)) :
    StopsAtFirst fails (l ++ l') (x >>= f) := by
  intro e
  rw [FirstFails.append_iff, ← h e]
  cases result : x with
  | error e' =>
    obtain ⟨a, member, own⟩ := ((h e').1 result).exists_mem
    change Except.error e' = .error e ↔ _
    constructor
    · rintro ⟨⟩
      exact .inl rfl
    · rintro (⟨⟨⟩⟩ | ⟨fine, -⟩)
      · rfl
      · exact (fine a member e' own).elim
  | ok b =>
    refine (next b result e).trans ?_
    constructor
    · exact fun later => .inr ⟨h.fine_of_ok result, later⟩
    · rintro (⟨⟨⟩⟩ | ⟨-, later⟩)
      exact later

theorem bind_pure (h : StopsAtFirst fails l x) (g : β → γ) :
    StopsAtFirst fails l (x >>= fun b => pure (g b)) := by
  have later : StopsAtFirst fails (l ++ []) (x >>= fun b => pure (g b)) := h.bind fun b _ => ok fails (g b)
  rwa [List.append_nil] at later

theorem mapM (f : α → Except ε β) (l : List α) : StopsAtFirst (fun a e => f a = .error e) l (l.mapM f) := by
  induction l with
  | nil => exact ok _ []
  | cons a rest ih =>
    rw [List.mapM_cons]
    exact bind (single fun e => Iff.rfl) fun b _ => ih.bind_pure (b :: ·)

theorem map_error (h : StopsAtFirst fails l x) (g : ε → ε') :
    StopsAtFirst (fun a e' => ∃ e, fails a e ∧ g e = e') l (x.mapError g) := by
  intro e'
  rw [FirstFails.image_iff]
  simp only [← h _]
  cases x with
  | error e =>
    change Except.error (g e) = .error e' ↔ _
    simp
  | ok b =>
    change Except.ok b = .error e' ↔ _
    simp

end StopsAtFirst

end ScopeComplexity
