import ScopeComplexity.Proofs.Keyed
import ScopeComplexity.Proofs.Scope.Preorder
import ScopeComplexity.Proofs.Scope.Recursion
import ScopeComplexity.Proofs.Statistics.Values
import ScopeComplexity.Report
import ScopeComplexity.Rules.Language

namespace ScopeComplexity

open Syntax

namespace Scope

variable {α : Type} [Measure α]

def Grown (s : Scope α) : Prop :=
  ∃ decisions, s.cyclomatic = Measure.complexity decisions ∧
    s.metrics = (Tally.start.gathered decisions (s.scopes.map (·.metrics))).summary

theorem scopes_assemble (kind : ScopeKind) (name : Option String) (n : Node) (decisions : Nat)
    (inner : List (Scope α)) : (assemble kind name n decisions inner).scopes = inner := by
  rw [assemble_eq]

theorem grown_assemble (kind : ScopeKind) (name : Option String) (n : Node) (decisions : Nat)
    (inner : List (Scope α)) : (assemble kind name n decisions inner).Grown := by
  refine ⟨decisions, ?_, ?_⟩
  · rw [assemble_eq]
  · rw [assemble_eq, Tally.summary_gathered_start]

theorem forall_grown_assemble (kind : ScopeKind) (name : Option String) (n : Node)
    (decisions : Nat) {inner : List (Scope α)} (h : ∀ c ∈ inner, ∀ t ∈ c.walk, t.Grown) :
    ∀ t ∈ (assemble kind name n decisions inner).walk, t.Grown := by
  rw [forall_mem_walk, scopes_assemble]
  exact ⟨grown_assemble kind name n decisions inner, h⟩

mutual

theorem forall_grown_openedAt (rules : Rules) (n : Node) (above : List Node) :
    ∀ c ∈ openedAt (α := α) rules above n, ∀ t ∈ c.walk, t.Grown := by
  obtain ⟨label, children⟩ := n
  have inner := forall_grown_openedIn rules children (.node label children :: above)
  rw [openedAt]
  cases rules.scopeKind (.node label children) with
  | none => exact inner
  | some kind =>
    rw [List.forall_mem_singleton]
    exact forall_grown_assemble _ _ _ _ inner

theorem forall_grown_openedIn (rules : Rules) (nodes : List Node) (above : List Node) :
    ∀ c ∈ openedIn (α := α) rules above nodes, ∀ t ∈ c.walk, t.Grown := by
  cases nodes with
  | nil => exact List.forall_mem_nil _
  | cons n siblings =>
    rw [openedIn, List.forall_mem_append]
    exact ⟨forall_grown_openedAt rules n above, forall_grown_openedIn rules siblings above⟩

end

theorem forall_grown_ofNode (rules : Rules) (root : Site) (name : Option String) :
    ∀ t ∈ (ofNode rules root name : Scope α).walk, t.Grown :=
  forall_grown_assemble _ _ _ _ (forall_grown_openedIn rules _ _)

def values (s : Scope Rat) : Multiset Rat := s.walk.map (·.cyclomatic)

theorem values_eq (s : Scope Rat) : s.values = s.cyclomatic ::ₘ (s.scopes.map values).sum := by
  have inner : ∀ scopes : List (Scope Rat),
      (((scopes.flatMap walk).map (·.cyclomatic) : List Rat) : Multiset Rat)
        = (scopes.map values).sum := by
    intro scopes
    induction scopes with
    | nil => rfl
    | cons c scopes ih =>
      rw [List.flatMap_cons, List.map_append, ← Multiset.coe_add, ih, List.map_cons, List.sum_cons]
      rfl
  rw [values, walk_eq, List.map_cons, ← Multiset.cons_coe, inner]

theorem Grown.one_le {s : Scope Rat} (h : s.Grown) : 1 ≤ s.cyclomatic := by
  obtain ⟨decisions, own, -⟩ := h
  rw [own, Measure.complexity_eq]
  simp

theorem covers_of_grown {s : Scope Rat} (h : ∀ t ∈ s.walk, t.Grown) : s.metrics.Covers s.values := by
  induction s using Scope.induction with
  | scope s ih =>
    rw [forall_mem_walk] at h
    obtain ⟨decisions, own, metrics⟩ := h.1
    have inner : ∀ c ∈ s.scopes, c.metrics.Covers c.values := fun c hc => ih c hc (h.2 c hc)
    have held := (Tally.holds_start.raised_iterate decisions).foldl_absorbed inner
    have complexity := Tally.cyclomatic_gathered_start decisions (s.scopes.map (·.metrics))
    rw [Tally.gathered] at complexity metrics
    have nonneg : (0 : Rat) ≤ Measure.complexity decisions :=
      own ▸ zero_le_one.trans h.1.one_le
    have covered := held.summary (complexity ▸ nonneg)
    rw [complexity, zero_add] at covered
    rwa [metrics, values_eq, own]

end Scope

/-- What a summary tells of some scopes, in exact numbers. The search for the least complexity starts
from the ceiling, which is the greatest double, so that it finds the least one as soon as any lies
below that. -/
structure Summary.Totals (m : Summary Rat) (scopes : List (Scope Rat)) : Prop where
  count : m.count = scopes.length
  sum : m.sum = (scopes.map (·.cyclomatic)).sum
  greatest : IsGreatest {x | ∃ s ∈ scopes, s.cyclomatic = x} m.greatest
  capped : IsLeast (insert Measure.ceiling {x | ∃ s ∈ scopes, s.cyclomatic = x}) m.least
  least : (∃ s ∈ scopes, s.cyclomatic < Measure.ceiling) →
    IsLeast {x | ∃ s ∈ scopes, s.cyclomatic = x} m.least ∧ m.least < Measure.ceiling
  mean : ∃ average, m.average = .ok average ∧ 1 ≤ m.least ∧ m.least ≤ average ∧ average ≤ m.greatest

theorem Summary.Covers.totals {m : Summary Rat} {scopes : List (Scope Rat)}
    (h : m.Covers (scopes.map (·.cyclomatic) : List Rat)) (grown : ∀ s ∈ scopes, s.Grown) :
    m.Totals scopes := by
  have values : {x | x ∈ ((scopes.map (·.cyclomatic) : List Rat) : Multiset Rat)}
      = {x | ∃ s ∈ scopes, s.cyclomatic = x} := by
    ext x
    simp
  refine ⟨?_, ?_, values ▸ h.greatest, values ▸ h.least, ?_, ?_⟩
  · simpa using h.count
  · simpa using h.sum
  · rintro ⟨s, hs, below⟩
    rw [← values]
    exact h.isLeast ⟨s.cyclomatic, Multiset.mem_coe.2 (List.mem_map_of_mem hs), below⟩
  · refine ⟨_, h.average, h.one_le_least fun x member => ?_, h.least_le_mean, h.mean_le_greatest⟩
    obtain ⟨s, hs, rfl⟩ := List.mem_map.1 (Multiset.mem_coe.1 member)
    exact (grown s hs).one_le

def Scope.Built (t : Scope Rat) : Prop :=
  ∃ rules root name, Scope.ofSite rules root name = .ok t

theorem Scope.Built.grown {t : Scope Rat} (h : t.Built) : ∀ s ∈ t.walk, s.Grown := by
  obtain ⟨rules, root, name, h⟩ := h
  rw [Scope.ofSite_eq_ofNode] at h
  cases h
  exact Scope.forall_grown_ofNode rules root name

theorem Scope.totals_of_grown {t : Scope Rat} (h : ∀ s ∈ t.walk, s.Grown) {s : Scope Rat}
    (hs : s ∈ t.walk) : s.metrics.Totals s.walk :=
  have below : ∀ u ∈ s.walk, u.Grown := fun u hu => h u (Scope.walk_subset hs hu)
  (Scope.covers_of_grown below).totals below

namespace Report

theorem coe_map_flatMap_walk (files : Keyed (Scope Rat)) :
    (((files.flatMap (·.2.walk)).map (·.cyclomatic) : List Rat) : Multiset Rat)
      = (files.map (·.2.values)).sum := by
  induction files with
  | nil => rfl
  | cons f files ih =>
    rw [List.flatMap_cons, List.map_append, ← Multiset.coe_add, ih, List.map_cons, List.sum_cons]
    rfl

theorem summary_eq_none_iff {α : Type} [Measure α] (r : Report α) :
    r.summary = none ↔ r.files = [] := by
  rw [summary, Summary.combine_eq_none_iff, List.map_eq_nil_iff, Keyed.sorted_eq_nil_iff]

theorem covers_summary {r : Report Rat} (h : ∀ f ∈ r.files, ∀ s ∈ f.2.walk, s.Grown)
    {m : Summary Rat} (hm : r.summary = some m) :
    m.Covers ((r.files.flatMap (·.2.walk)).map (·.cyclomatic) : List Rat) := by
  have sorted := r.files.sorted_perm
  have covers : ∀ f ∈ r.files.sorted, f.2.metrics.Covers f.2.values :=
    fun f hf => Scope.covers_of_grown (h f (sorted.mem_iff.1 hf))
  have whole := Summary.covers_combine covers hm
  rwa [(sorted.map (·.2.values)).sum_eq, ← coe_map_flatMap_walk] at whole

end Report

/-- The summary of each scope in a tree that was built is that of all scopes in it, looked at one by one, and the
summary of a report is that of all scopes of all its files. -/
theorem metrics_total :
    (∀ (rules : Rules) (root : Site) (name : Option String), ∃ t : Scope Rat,
      Scope.ofSite rules root name = .ok t ∧ ∀ s ∈ t.walk, s.metrics.Totals s.walk) ∧
    ∀ r : Report Rat, (∀ f ∈ r.files, f.2.Built) →
      (r.summary = none ↔ r.files = []) ∧
        ∀ m, r.summary = some m → m.Totals (r.files.flatMap (·.2.walk)) := by
  refine ⟨fun rules root name => ?_, fun r built => ?_⟩
  · refine ⟨_, Scope.ofSite_eq_ofNode rules root name, fun s hs => ?_⟩
    exact Scope.totals_of_grown (Scope.forall_grown_ofNode rules root name) hs
  · have grown : ∀ f ∈ r.files, ∀ s ∈ f.2.walk, s.Grown := fun f hf => (built f hf).grown
    refine ⟨r.summary_eq_none_iff, fun m hm => ?_⟩
    exact (Report.covers_summary grown hm).totals (List.forall_mem_flatMap.2 grown)

theorem metrics_total_of_function :
    let function := Node.node { kind := "function_definition" } [.node { kind := "if", named := false } []]
    let file : Scope Rat := Scope.ofNode Language.python.rules (.root (.node { kind := "module" } [function])) none
    file.Built ∧ ∃ m, (⟨[("a.py", file)], []⟩ : Report Rat).summary = some m ∧ m.Totals file.walk ∧
      m.count = 2 ∧ IsLeast {x | ∃ s ∈ file.walk, s.cyclomatic = x} m.least := by
  intro function file
  have built : file.Built := ⟨_, _, _, Scope.ofSite_eq_ofNode _ _ _⟩
  have summary : (⟨[("a.py", file)], []⟩ : Report Rat).summary = some file.metrics := by
    rw [Report.summary, Keyed.sorted, List.mergeSort_singleton]
    rfl
  have totals := (metrics_total.2 ⟨[("a.py", file)], []⟩ (by simpa using built)).2 _ summary
  rw [List.flatMap_singleton] at totals
  have own : file.cyclomatic = Measure.complexity 0 := rfl
  have below : file.cyclomatic < Measure.ceiling := by
    rw [own, Measure.complexity_eq, Nat.cast_zero, add_zero]
    exact Measure.one_lt_ceiling
  exact ⟨built, _, summary, totals, rfl, (totals.least ⟨file, file.mem_walk_self, below⟩).1⟩

end ScopeComplexity
