import Mathlib.Data.List.Forall2
import ScopeComplexity.Proofs.Report
import ScopeComplexity.Proofs.Scope.Filling

namespace ScopeComplexity

open Syntax (Place)

namespace Json.Document

variable {α : Type}

theorem sizeOf_lt_of_lookup {key : String} {d : Document α} {members : List (String × Document α)}
    (found : members.lookup key = some d) : sizeOf d < sizeOf members := by
  obtain ⟨before, after, split, -⟩ := List.lookup_eq_some_iff.1 found
  have outer : sizeOf (key, d) < sizeOf members :=
    List.sizeOf_lt_of_mem (split ▸ List.mem_append_right _ List.mem_cons_self)
  simp only [Prod.mk.sizeOf_spec] at outer
  omega

def entries (key : String) : Document α → List (Document α)
  | .object members =>
    match members.lookup key with
    | some (.list items) => items
    | _ => []
  | _ => []

theorem sizeOf_lt_of_mem_entries {key : String} {d e : Document α} (h : e ∈ d.entries key) :
    sizeOf e < sizeOf d := by
  unfold entries at h
  split at h
  next members =>
    split at h
    next items found =>
      have inner := List.sizeOf_lt_of_mem h
      have outer := sizeOf_lt_of_lookup found
      simp only [Document.list.sizeOf_spec, Document.object.sizeOf_spec] at *
      omega
    next => cases h
  next => cases h

def rows (depth : Nat) (d : Document α) : List (Nat × Document α) :=
  (depth, d) :: (d.entries "spaces").attach.flatMap fun e => rows (depth + 1) e.1
termination_by sizeOf d
decreasing_by exact sizeOf_lt_of_mem_entries e.2

theorem rows_eq (depth : Nat) (d : Document α) :
    d.rows depth = (depth, d) :: (d.entries "spaces").flatMap (rows (depth + 1)) := by
  rw [rows, List.flatMap_subtype fun _ _ => rfl, List.unattach_attach]

end Json.Document

namespace Scope

open Json (Document)

section Places

variable {α : Type}

def at? : Place → Scope α → Option (Scope α)
  | [], s => some s
  | i :: p, s => s.scopes[i]?.bind (at? p)

mutual

def places : Scope α → List Place
  | ⟨_, _, _, _, _, _, scopes⟩ => [] :: placesFrom 0 scopes

def placesFrom (i : Nat) : List (Scope α) → List Place
  | [] => []
  | s :: others => s.places.map (i :: ·) ++ placesFrom (i + 1) others

end

theorem placesFrom_eq (i : Nat) (scopes : List (Scope α)) :
    placesFrom i scopes = (scopes.zipIdx i).flatMap fun c => c.1.places.map (c.2 :: ·) := by
  induction scopes generalizing i with
  | nil => rfl
  | cons s others ih => rw [placesFrom, ih, List.zipIdx_cons, List.flatMap_cons]

theorem places_eq (s : Scope α) :
    s.places = [] :: s.scopes.zipIdx.flatMap fun c => c.1.places.map (c.2 :: ·) := by
  cases s
  rw [places, placesFrom_eq]

theorem mem_places {s : Scope α} {p : Place} : p ∈ s.places ↔ (s.at? p).isSome := by
  induction s using induction generalizing p with
  | scope s ih =>
    rw [places_eq]
    cases p with
    | nil => exact iff_of_true List.mem_cons_self rfl
    | cons i p =>
      rw [at?, Option.isSome_bind, Option.any_eq_true]
      constructor
      · intro h
        obtain ⟨⟨c, _⟩, member, h⟩ := List.mem_flatMap.1 (List.mem_of_ne_of_mem (List.cons_ne_nil i p) h)
        obtain ⟨_, inner, same⟩ := List.mem_map.1 h
        cases same
        have found := List.mem_zipIdx_iff_getElem?.1 member
        exact ⟨c, found, (ih c (List.mem_of_getElem? found)).1 inner⟩
      · rintro ⟨c, found, inner⟩
        refine List.mem_cons_of_mem _ (List.mem_flatMap.2 ⟨(c, i), List.mem_zipIdx_iff_getElem?.2 found, ?_⟩)
        exact List.mem_map_of_mem ((ih c (List.mem_of_getElem? found)).2 inner)

theorem pairwise_places (s : Scope α) : s.places.Pairwise (· < ·) := by
  induction s using induction with
  | scope s ih =>
    rw [places_eq, List.pairwise_cons, List.pairwise_flatMap]
    refine ⟨?root, ?inside, ?between⟩
    case root =>
      intro p member
      obtain ⟨c, -, member⟩ := List.mem_flatMap.1 member
      obtain ⟨q, -, rfl⟩ := List.mem_map.1 member
      exact List.nil_lt_cons _ _
    case inside =>
      intro c member
      have own := ih c.1 (List.mem_of_getElem? (List.mem_zipIdx_iff_getElem?.1 member))
      exact own.map _ fun p q less => List.cons_lt_cons_iff.2 (.inr ⟨rfl, less⟩)
    case between =>
      have numbers : (s.scopes.zipIdx.map Prod.snd).Pairwise (· < ·) := by
        rw [List.zipIdx_map_snd]
        exact List.pairwise_lt_range' 1
      refine (List.pairwise_map.1 numbers).imp fun less p hp q hq => ?_
      obtain ⟨p, -, rfl⟩ := List.mem_map.1 hp
      obtain ⟨q, -, rfl⟩ := List.mem_map.1 hq
      exact List.cons_lt_cons_iff.2 (.inl less)

theorem map_at?_places (s : Scope α) (depth : Nat) :
    s.places.map (fun p => (depth + p.length, s.at? p)) = (s.rows depth).map (Prod.map id some) := by
  induction s using induction generalizing depth with
  | scope s ih =>
    have inner : ∀ c ∈ s.scopes.zipIdx, (c.1.places.map (c.2 :: ·)).map (fun p => (depth + p.length, s.at? p))
        = (c.1.rows (depth + 1)).map (Prod.map id some) := by
      rintro ⟨c, i⟩ member
      have found := List.mem_zipIdx_iff_getElem?.1 member
      rw [← ih c (List.mem_of_getElem? found), List.map_map]
      apply List.map_congr_left
      intro p _
      rw [Function.comp_apply, at?, found, List.length_cons, Nat.add_right_comm, Nat.add_assoc]
      rfl
    rw [places_eq, rows_eq, List.map_cons, List.map_cons, List.map_flatMap, List.map_flatMap,
      List.flatMap_congr inner]
    conv_rhs => rw [← List.zipIdx_map_fst 0 s.scopes, List.flatMap_map]
    rfl

end Places

section Records

variable {α : Type} [Measure α]

theorem bind_eq_ok_iff {β γ ε : Type} {x : Except ε β} {f : β → Except ε γ} {z : γ} :
    x >>= f = .ok z ↔ ∃ y, x = .ok y ∧ f y = .ok z := by
  cases x with
  | error e => exact ⟨nofun, fun ⟨_, no, _⟩ => nomatch no⟩
  | ok y => exact ⟨fun h => ⟨y, rfl, h⟩, fun ⟨_, same, h⟩ => by cases same; exact h⟩

theorem forall₂_of_mapM {β γ ε : Type} {f : β → Except ε γ} {xs : List β} {ys : List γ}
    (h : xs.mapM f = .ok ys) : List.Forall₂ (fun x y => f x = .ok y) xs ys := by
  induction xs generalizing ys with
  | nil =>
    cases h
    exact .nil
  | cons x xs ih =>
    rw [List.mapM_cons] at h
    obtain ⟨y, first, h⟩ := bind_eq_ok_iff.1 h
    obtain ⟨zs, others, h⟩ := bind_eq_ok_iff.1 h
    cases h
    exact .cons first (ih others)

def written (s : Scope α) (metrics : Document α) (nested : List (Document α)) : Document α :=
  .object [("name", nameDocument s.name), ("kind", .text s.kind.text), ("start_line", .count s.startLine),
    ("end_line", .count s.endLine), ("cyclomatic", .amount s.cyclomatic),
    ("metrics", .object [("cyclomatic", metrics)]), ("spaces", .list nested)]

theorem written_of_record {s : Scope α} {d : Document α} (h : s.record = .ok d) :
    ∃ metrics nested, s.metrics.record = .ok metrics ∧
      List.Forall₂ (fun c e => c.record = .ok e) s.scopes nested ∧ d = s.written metrics nested := by
  obtain ⟨name, kind, startLine, endLine, cyclomatic, summary, scopes⟩ := s
  rw [record, recordAll_eq_mapM] at h
  obtain ⟨metrics, own, h⟩ := bind_eq_ok_iff.1 h
  obtain ⟨nested, documents, h⟩ := bind_eq_ok_iff.1 h
  cases h
  exact ⟨metrics, nested, own, forall₂_of_mapM documents, rfl⟩

theorem record_inv {s : Scope α} {d : Document α} (h : s.record = .ok d) :
    s.metrics.HasMean ∧ List.Forall₂ (fun c e => c.record = .ok e) s.scopes (d.entries "spaces") := by
  obtain ⟨metrics, nested, own, documents, rfl⟩ := written_of_record h
  obtain ⟨average, mean, -⟩ := bind_eq_ok_iff.1 own
  exact ⟨⟨average, mean⟩, documents⟩

theorem forall₂_rows_of_record {s : Scope α} {d : Document α} (h : s.record = .ok d) (depth : Nat) :
    List.Forall₂ (fun row entry => entry.1 = row.1 ∧ row.2.record = .ok entry.2) (s.rows depth) (d.rows depth) := by
  induction s using induction generalizing d depth with
  | scope s ih =>
    rw [rows_eq, Document.rows_eq]
    refine .cons ⟨rfl, h⟩ ?_
    exact List.rel_flatMap ((List.forall₂_and_left _ _).2 ⟨ih, (record_inv h).2⟩) fun c e related =>
      related.1 related.2 (depth + 1)

theorem record_isOk_iff {s : Scope α} : (∃ d, s.record = .ok d) ↔ ∀ t ∈ s.walk, t.metrics.HasMean := by
  refine ⟨?_, exists_record⟩
  rintro ⟨d, h⟩
  induction s using induction generalizing d with
  | scope s ih =>
    obtain ⟨own, nested⟩ := record_inv h
    have each : ∀ c ∈ s.scopes, ∃ e, c.record = .ok e :=
      ((List.forall₂_and_left _ _).1 (nested.imp fun c e recorded => ⟨⟨e, recorded⟩, recorded⟩)).1
    refine forall_mem_walk.2 ⟨own, fun c member => ?_⟩
    obtain ⟨e, recorded⟩ := each c member
    exact ih c member e recorded

end Records

theorem find_eq_some_iff {α : Type} {s t : Scope α} {name : Option String} :
    s.find name = some t ↔
      t.name = name ∧ ∃ before after, s.walk = before ++ t :: after ∧ ∀ u ∈ before, u.name ≠ name := by
  rw [find, List.find?_eq_some_iff_append]
  simp only [beq_iff_eq, Bool.not_eq_true', beq_eq_false_iff_ne]

theorem find_eq_none_iff {α : Type} {s : Scope α} {name : Option String} :
    s.find name = none ↔ ∀ t ∈ s.walk, t.name ≠ name := by
  rw [find, List.find?_eq_none]
  simp only [beq_iff_eq, ne_eq]

theorem at?_shown {α : Type} (label : Scope α → String) (s : Scope α) (p : Place) :
    View.at? p (s.shown label) = (s.at? p).map (shown label) := by
  induction p generalizing s with
  | nil => rfl
  | cons i p ih =>
    rw [View.at?, at?, shown_eq, List.getElem?_map, Option.bind_map, Option.map_bind]
    exact congrArg _ (funext ih)

theorem visit_shown {α : Type} (label : Scope α → String) (pending : List (Nat × Scope α)) :
    View.visit (pending.map (Prod.map id (shown label))) = (visit pending).map (Prod.map id label) := by
  induction pending using visit.induct with
  | case1 => rw [visit, List.map_nil, View.visit, List.map_nil]
  | case2 depth s rest ih =>
    have inner : View.nested depth (s.shown label) = (nested depth s).map (Prod.map id (shown label)) := by
      rw [View.nested, shown_eq, nested, List.map_map, List.map_map]
      rfl
    rw [visit, List.map_cons, List.map_cons, ← ih, List.map_append, ← inner, Prod.map_apply, View.visit, shown_eq]
    rfl

/-- The ways through a scope tree agree. -/
structure Traversed (s : Scope Float) : Prop where
  walk : s.outline = s.rows 0 ∧ s.walk = (s.rows 0).map (·.2)
  once : s.places.Pairwise (· < ·) ∧ (∀ p, p ∈ s.places ↔ (s.at? p).isSome)
    ∧ s.outline.map (Prod.map id some) = s.places.map fun p => (p.length, s.at? p)
  view : s.filled = s.shown viewLabel ∧ s.view = s.filled
  shape : ∀ p, (View.at? p s.view).map (fun v => (v.label, v.branches.length))
    = (s.at? p).map fun t => (t.viewLabel, t.scopes.length)
  viewOutline : s.view.outline = (s.rows 0).map (Prod.map id viewLabel)
  recorded : (∃ d, s.record = .ok d) ↔ ∀ t ∈ s.walk, t.metrics.HasMean
  documents : ∀ d, s.record = .ok d →
    List.Forall₂ (fun row entry => entry.1 = row.1 ∧ row.2.record = .ok entry.2) s.outline (d.rows 0)
  found : ∀ name t, s.find name = some t ↔
    t.name = name ∧ ∃ before after,
      (s.rows 0).map (·.2) = before ++ t :: after ∧ ∀ u ∈ before, u.name ≠ name
  missing : ∀ name, s.find name = none ↔ ∀ t ∈ (s.rows 0).map (·.2), t.name ≠ name

/-- All ways through a scope tree show the same tree. A limit to the recursion that makes documents is not modelled. -/
theorem traversals_agree (s : Scope Float) : s.Traversed := by
  have walk : s.walk = (s.rows 0).map (·.2) := (map_snd_rows 0 s).symm
  have view : s.view = s.filled := (view_eq s).trans (filled_eq s).symm
  have places := map_at?_places s 0
  exact {
    walk := ⟨outline_eq_rows s, walk⟩
    once := ⟨pairwise_places s, fun _ => mem_places, by
      simpa only [outline_eq_rows, Nat.zero_add] using places.symm⟩
    view := ⟨filled_eq s, view⟩
    shape := fun p => by
      rw [view_eq, at?_shown, Option.map_map]
      apply Option.map_congr
      intro t _
      rw [Function.comp_apply, shown_eq, List.length_map]
    viewOutline := by
      rw [view_eq, ← outline_eq_rows]
      exact visit_shown viewLabel [(0, s)]
    recorded := record_isOk_iff
    documents := fun d h => by
      rw [outline_eq_rows]
      exact forall₂_rows_of_record h 0
    found := fun name t => by rw [← walk, find_eq_some_iff]
    missing := fun name => by rw [← walk, find_eq_none_iff] }

end Scope

end ScopeComplexity
