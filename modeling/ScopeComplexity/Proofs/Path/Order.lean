import Mathlib.Data.List.Lex
import ScopeComplexity.Proofs.Path.Normal

namespace ScopeComplexity.Path

theorem leParts_iff {a b : List String} : leParts a b = true ↔ a ≤ b := by
  induction a generalizing b with
  | nil =>
    rw [leParts, ← not_lt]
    simp
  | cons x a ih =>
    cases b with
    | nil =>
      rw [leParts, ← not_lt]
      simp
    | cons y b =>
      rw [leParts, Bool.or_eq_true, Bool.and_eq_true, beq_iff_eq, ih, decide_eq_true_iff,
        le_iff_lt_or_eq, le_iff_lt_or_eq, List.cons_lt_cons_iff, List.cons.injEq]
      tauto

theorem le_iff {p q : Path} : le p q = true ↔ p.components ≤ q.components := leParts_iff

theorem Root.text_injective {r s : Root} (h : r.text = s.text) : r = s := by
  revert h
  cases r <;> cases s <;> decide

theorem not_isName_text (root : Root) : ¬ IsName root.text := by
  cases root <;> simp [IsName, Root.text, isPart]

theorem components_injective {p q : Path} (hp : p.Normal) (hq : q.Normal)
    (h : p.components = q.components) : p = q := by
  obtain ⟨root, parts⟩ := p
  obtain ⟨root', parts'⟩ := q
  rw [components, components] at h
  split at h <;> split at h
  · simp_all
  · subst h
    exact absurd (hp _ List.mem_cons_self) (not_isName_text root')
  · subst h
    exact absurd (hq _ List.mem_cons_self) (not_isName_text root)
  · obtain ⟨roots, rfl⟩ := List.cons.inj h
    cases Root.text_injective roots
    rfl

end ScopeComplexity.Path
