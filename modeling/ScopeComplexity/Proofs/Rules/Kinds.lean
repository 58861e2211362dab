import ScopeComplexity.Proofs.Keyed
import ScopeComplexity.Rules.Language

namespace ScopeComplexity

open Syntax

namespace Syntax.Site

def kinds (s : Site) : List String := s.node.kind :: s.above.map Node.kind

def OfKind (test : Site → Bool) : Prop := ∃ accepts : String → Bool, ∀ s, test s = accepts s.node.kind

theorem ofKind_kindIn (kinds : List String) : OfKind (kindIn kinds) := ⟨kinds.contains, fun _ => rfl⟩

theorem ofKind_kindNotIn (kinds : List String) : OfKind (kindNotIn kinds) :=
  ⟨fun kind => !kinds.contains kind, fun _ => rfl⟩

theorem climb_congr {found stop : Site → Bool} (hfound : OfKind found) (hstop : OfKind stop)
    (limit : Nat) {above above' : List Node} (same : above.map Node.kind = above'.map Node.kind) :
    climb found stop limit above = climb found stop limit above' := by
  obtain ⟨finds, hfinds⟩ := hfound
  obtain ⟨stops, hstops⟩ := hstop
  induction limit generalizing above above' with
  | zero => rfl
  | succ limit ih =>
    cases above with
    | nil =>
      cases List.map_eq_nil_iff.1 same.symm
      rfl
    | cons n above =>
      cases above' with
      | nil => cases same
      | cons n' above' =>
        obtain ⟨kind, rest⟩ := List.cons.inj same
        rw [climb, climb, hfinds, hfinds, hstops, hstops, ih rest, kind]

end Syntax.Site

inductive Guard.ByKind : Guard → Prop where
  | parentIs (kinds : List String) : ByKind (Guard.parentIs kinds)
  | ancestor {found stop : Site → Bool} (found_ofKind : Site.OfKind found)
      (stop_ofKind : Site.OfKind stop) : ByKind (Guard.ancestor found stop)

theorem Guard.ByKind.congr {guard : Guard} (h : guard.ByKind) {s s' : Site}
    (same : s.kinds = s'.kinds) : guard s = guard s' := by
  obtain ⟨n, above⟩ := s
  obtain ⟨n', above'⟩ := s'
  have above_same : above.map Node.kind = above'.map Node.kind := (List.cons.inj same).2
  cases h with
  | parentIs kinds =>
    cases above with
    | nil =>
      cases List.map_eq_nil_iff.1 above_same.symm
      rfl
    | cons parent above =>
      cases above' with
      | nil => cases above_same
      | cons parent' above' =>
        have kind : parent.kind = parent'.kind := (List.cons.inj above_same).1
        simp only [Guard.parentIs, Site.parent?, Site.kindIn, kind]
  | ancestor found_ofKind stop_ofKind =>
    exact Site.climb_congr found_ofKind stop_ofKind Site.searchLimit above_same

namespace Rules

def ByKind (rules : Rules) : Prop := ∀ g ∈ rules.guards, g.2.ByKind

theorem ByKind.isDecision_congr {rules : Rules} (h : rules.ByKind) {s s' : Site}
    (same : s.kinds = s'.kinds) : rules.isDecision s = rules.isDecision s' := by
  have kind : s.node.kind = s'.node.kind := (List.cons.inj same).1
  rw [isDecision, isDecision, kind]
  cases found : rules.guards.get? s'.node.kind with
  | none => rfl
  | some guard =>
    have known : guard.ByKind := h _ (Keyed.mem_of_get?_eq_some found)
    simp only [known.congr same]

end Rules

namespace Language

theorem byKind_operatorGuards : ∀ g ∈ operatorGuards, g.2.ByKind := by
  rw [operatorGuards]
  simp only [List.forall_mem_cons]
  exact ⟨.parentIs _, .parentIs _, List.forall_mem_nil _⟩

theorem byKind_isLoopElse : isLoopElse.ByKind :=
  .ancestor (Site.ofKind_kindIn _) (Site.ofKind_kindNotIn _)

theorem byKind_of_mem_all : ∀ l ∈ all, l.rules.ByKind := by
  have forKeyword : ∀ g ∈ rust.rules.guards, g.2.ByKind :=
    List.forall_mem_append.2 ⟨byKind_operatorGuards, List.forall_mem_singleton.2 (.parentIs _)⟩
  rw [all]
  simp only [List.forall_mem_cons]
  exact ⟨List.forall_mem_singleton.2 byKind_isLoopElse, byKind_operatorGuards, byKind_operatorGuards,
    byKind_operatorGuards, byKind_operatorGuards, byKind_operatorGuards, byKind_operatorGuards,
    byKind_operatorGuards, forKeyword, List.forall_mem_nil _, List.forall_mem_nil _,
    List.forall_mem_nil _⟩

end Language

end ScopeComplexity
