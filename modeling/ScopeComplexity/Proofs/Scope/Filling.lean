import Mathlib.Data.List.Basic
import ScopeComplexity.Proofs.Scope.Preorder
import ScopeComplexity.Proofs.Syntax.Place
import ScopeComplexity.Scope.View

/-!
The tree for display, filled from a queue. A scope waits with the branch that it goes to, its own branch is added at
the end there, and the scopes nested in it queue up behind all others. Branches are added at ends only, so that a
branch keeps its place.

What comes of it is the tree by recursion (`filled_eq`), and so is what comes of filling level by level (`view_eq`).
-/

namespace ScopeComplexity

open Syntax (Place)

namespace View

def at? : Place → View → Option View
  | [], v => some v
  | i :: p, v => v.branches[i]?.bind (at? p)

def update (f : View → View) : Place → View → View
  | [], v => f v
  | i :: p, v => ⟨v.label, v.branches.modify i (update f p)⟩

def push (branch v : View) : View := ⟨v.label, v.branches ++ [branch]⟩

def Has (v : View) (p : Place) : Prop := (at? p v).isSome

def nextPlace (v : View) (p : Place) : Place :=
  p ++ [((at? p v).map fun branch => branch.branches.length).getD 0]

theorem at?_append (p q : Place) (v : View) : at? (p ++ q) v = (at? p v).bind (at? q) := by
  induction p generalizing v with
  | nil => rfl
  | cons i p ih =>
    rw [List.cons_append, at?, at?, Option.bind_assoc]
    exact Option.bind_congr fun branch _ => ih branch

theorem update_append (f : View → View) (p q : Place) (v : View) :
    update f (p ++ q) v = update (update f q) p v := by
  induction p generalizing v with
  | nil => rfl
  | cons i p ih =>
    have inner : update f (p ++ q) = update (update f q) p := funext ih
    rw [List.cons_append, update, update, inner]

theorem modify_congr {β : Type} {f g : β → β} {xs : List β} {i : Nat}
    (same : ∀ x, xs[i]? = some x → f x = g x) : xs.modify i f = xs.modify i g := by
  apply List.ext_getElem?
  intro k
  rw [List.getElem?_modify, List.getElem?_modify]
  cases found : xs[k]? with
  | none => rfl
  | some x =>
    by_cases here : i = k
    · subst here
      simp [same x found]
    · simp [here]

theorem modify_comm {β : Type} {f g : β → β} {xs : List β} {i j : Nat}
    (same : i = j → ∀ x, xs[i]? = some x → g (f x) = f (g x)) :
    (xs.modify i f).modify j g = (xs.modify j g).modify i f := by
  apply List.ext_getElem?
  intro k
  simp only [List.getElem?_modify]
  cases found : xs[k]? with
  | none => rfl
  | some x => grind

theorem modify_concat {β : Type} {f : β → β} {xs : List β} {i : Nat} (h : i < xs.length) (x : β) :
    (xs ++ [x]).modify i f = xs.modify i f ++ [x] := by
  induction xs generalizing i with
  | nil => cases h
  | cons y ys ih =>
    cases i with
    | zero => rfl
    | succ i => exact congrArg (y :: ·) (ih (Nat.lt_of_succ_lt_succ h))

theorem modify_concat_length {β : Type} (f : β → β) (xs : List β) (x : β) :
    (xs ++ [x]).modify xs.length f = xs ++ [f x] := by
  induction xs with
  | nil => rfl
  | cons y ys ih => exact congrArg (y :: ·) ih

theorem update_congr {f g : View → View} {p : Place} {v branch : View} (here : at? p v = some branch)
    (same : f branch = g branch) : update f p v = update g p v := by
  induction p generalizing v with
  | nil =>
    cases here
    exact same
  | cons i p ih =>
    rw [update, update]
    congr 1
    apply modify_congr
    intro inner found
    rw [at?, found] at here
    exact ih here

theorem update_update (f g : View → View) (p : Place) (v : View) :
    update g p (update f p v) = update (g ∘ f) p v := by
  induction p generalizing v with
  | nil => rfl
  | cons i p ih =>
    rw [update, update, update]
    congr 1
    apply List.ext_getElem?
    intro k
    simp only [List.getElem?_modify]
    cases v.branches[k]? with
    | none => rfl
    | some x => grind

theorem update_id (p : Place) (v : View) : update id p v = v := by
  induction p generalizing v with
  | nil => rfl
  | cons i p ih =>
    obtain ⟨label, branches⟩ := v
    have inner : update id p = id := funext ih
    rw [update, inner, List.modify_id]

theorem at?_update (f : View → View) (p : Place) (v : View) : at? p (update f p v) = (at? p v).map f := by
  induction p generalizing v with
  | nil => rfl
  | cons i p ih =>
    rw [update, at?, at?, List.getElem?_modify_eq]
    cases v.branches[i]? with
    | none => rfl
    | some branch => exact ih branch

theorem has_cons_iff {v : View} {i : Nat} {p : Place} :
    v.Has (i :: p) ↔ ∃ branch, v.branches[i]? = some branch ∧ branch.Has p := by
  rw [Has, at?, Option.isSome_bind, Option.any_eq_true]
  rfl

theorem lt_of_has_cons {v : View} {i : Nat} {p : Place} (h : v.Has (i :: p)) : i < v.branches.length := by
  obtain ⟨branch, found, -⟩ := has_cons_iff.1 h
  exact (List.getElem?_eq_some_iff.1 found).1

theorem has_update_push {v : View} {q : Place} (h : v.Has q) (branch : View) (p : Place) :
    (update (push branch) p v).Has q := by
  induction p generalizing q v with
  | nil =>
    cases q with
    | nil => exact rfl
    | cons j q =>
      rw [Has, at?, update, push, List.getElem?_append_left (lt_of_has_cons h)]
      exact h
  | cons i p ih =>
    cases q with
    | nil => exact rfl
    | cons j q =>
      obtain ⟨inner, found, below⟩ := has_cons_iff.1 h
      rw [has_cons_iff, update]
      by_cases same : i = j
      · subst same
        rw [List.getElem?_modify_eq, found]
        exact ⟨_, rfl, ih below⟩
      · rw [List.getElem?_modify_ne _ _ same]
        exact ⟨inner, found, below⟩

theorem nextPlace_eq {v branch : View} {p : Place} (here : at? p v = some branch) :
    v.nextPlace p = p ++ [branch.branches.length] := by
  rw [nextPlace, here]
  rfl

theorem has_nextPlace {v : View} {p : Place} (h : v.Has p) (branch : View) :
    (update (push branch) p v).Has (v.nextPlace p) := by
  obtain ⟨whole, here⟩ := Option.isSome_iff_exists.1 h
  rw [Has, nextPlace_eq here, at?_append, at?_update, here]
  simp [at?, push]

theorem not_has_nextPlace {v : View} {p : Place} (h : v.Has p) : ¬ v.Has (v.nextPlace p) := by
  obtain ⟨whole, here⟩ := Option.isSome_iff_exists.1 h
  rw [Has, nextPlace_eq here, at?_append, here]
  simp [at?]

theorem update_nextPlace {v : View} {p : Place} (h : v.Has p) (f : View → View) (branch : View) :
    update f (v.nextPlace p) (update (push branch) p v) = update (push (f branch)) p v := by
  obtain ⟨whole, here⟩ := Option.isSome_iff_exists.1 h
  rw [nextPlace_eq here, update_append, update_update]
  apply update_congr here
  rw [Function.comp_apply, push, update, modify_concat_length]
  rfl

def extend (branches : List View) (v : View) : View := ⟨v.label, v.branches ++ branches⟩

theorem extend_nil : extend [] = id := by
  funext ⟨label, branches⟩
  rw [extend, List.append_nil]
  rfl

def attach (v : View) (waiting : Place × View) : View := update (push waiting.2) waiting.1 v

theorem attach_nil_comm {v : View} {i : Nat} {p : Place} (h : v.Has (i :: p)) (b c : View) :
    attach (attach v ([], b)) (i :: p, c) = attach (attach v (i :: p, c)) ([], b) :=
  congrArg (View.mk v.label) (modify_concat (lt_of_has_cons h) b)

theorem attach_comm {v : View} {p q : Place} (hp : v.Has p) (hq : v.Has q) (apart : p ≠ q) (b c : View) :
    attach (attach v (p, b)) (q, c) = attach (attach v (q, c)) (p, b) := by
  induction p generalizing q v with
  | nil =>
    cases q with
    | nil => exact absurd rfl apart
    | cons j q => exact attach_nil_comm hq b c
  | cons i p ih =>
    cases q with
    | nil => exact (attach_nil_comm hp c b).symm
    | cons j q =>
      apply congrArg (View.mk v.label)
      apply modify_comm
      rintro rfl branch found
      obtain ⟨_, found', hp⟩ := has_cons_iff.1 hp
      obtain ⟨_, found'', hq⟩ := has_cons_iff.1 hq
      cases found.symm.trans found'
      cases found.symm.trans found''
      exact ih hp hq fun same => apart (congrArg (i :: ·) same)

def attachAll (v : View) (waiting : List (Place × View)) : View := waiting.foldl attach v

theorem attachAll_attach {v : View} {first : Place × View} {others : List (Place × View)} (h : v.Has first.1)
    (all : ∀ e ∈ others, v.Has e.1 ∧ first.1 ≠ e.1) :
    attachAll (attach v first) others = attach (attachAll v others) first := by
  induction others generalizing v with
  | nil => rfl
  | cons second others ih =>
    obtain ⟨here, all⟩ := List.forall_mem_cons.1 all
    have moved : attach (attach v first) second = attach (attach v second) first :=
      attach_comm h here.1 here.2 first.2 second.2
    rw [attachAll, List.foldl_cons, moved]
    exact ih (has_update_push h _ _) fun e member => ⟨has_update_push (all e member).1 _ _, (all e member).2⟩

theorem attachAll_comm {v : View} {early late : List (Place × View)} (he : ∀ e ∈ early, v.Has e.1)
    (hl : ∀ e ∈ late, v.Has e.1) (apart : ∀ d ∈ early, ∀ e ∈ late, d.1 ≠ e.1) :
    attachAll (attachAll v early) late = attachAll (attachAll v late) early := by
  induction early generalizing v with
  | nil => rfl
  | cons first early ih =>
    obtain ⟨here, he⟩ := List.forall_mem_cons.1 he
    obtain ⟨apartHere, apart⟩ := List.forall_mem_cons.1 apart
    have kept : ∀ {e : Place × View}, v.Has e.1 → (attach v first).Has e.1 := fun h => has_update_push h _ _
    calc attachAll (attachAll (attach v first) early) late
        = attachAll (attachAll (attach v first) late) early :=
          ih (fun e member => kept (he e member)) (fun e member => kept (hl e member)) apart
      _ = attachAll (attach (attachAll v late) first) early := by
          rw [attachAll_attach here fun e member => ⟨hl e member, apartHere e member⟩]

theorem attachAll_place (v : View) (p : Place) (branches : List View) :
    attachAll v (branches.map (p, ·)) = update (extend branches) p v := by
  induction branches generalizing v with
  | nil =>
    rw [extend_nil, update_id]
    rfl
  | cons first others ih =>
    have together : extend others ∘ push first = extend (first :: others) := by
      funext v
      rw [Function.comp_apply, push, extend, extend, List.append_assoc]
      rfl
    calc attachAll v ((first :: others).map (p, ·))
        = update (extend others) p (update (push first) p v) := ih _
      _ = update (extend (first :: others)) p v := by rw [update_update, together]

end View

namespace Scope

open View (attach attachAll)

variable {α : Type}

mutual

def shown (label : Scope α → String) : Scope α → View
  | ⟨name, kind, startLine, endLine, cyclomatic, metrics, scopes⟩ =>
    ⟨label ⟨name, kind, startLine, endLine, cyclomatic, metrics, scopes⟩, shownAll label scopes⟩

def shownAll (label : Scope α → String) : List (Scope α) → List View
  | [] => []
  | s :: others => s.shown label :: shownAll label others

end

theorem shownAll_eq (label : Scope α → String) (scopes : List (Scope α)) :
    shownAll label scopes = scopes.map (shown label) := by
  induction scopes with
  | nil => rfl
  | cons s others ih => rw [shownAll, List.map_cons, ih]

theorem shown_eq (label : Scope α → String) (s : Scope α) :
    s.shown label = ⟨label s, s.scopes.map (shown label)⟩ := by
  cases s
  rw [shown, shownAll_eq]

def waiting (p : Place) (s : Scope α) : List (Place × Scope α) := s.scopes.map (p, ·)

theorem weight_waiting_lt (p : Place) (s : Scope α) : WorkList.weight ((waiting p s).map (·.2)) < sizeOf s := by
  have := weight_scopes_lt s
  simpa only [waiting, List.map_map, Function.comp_def, List.map_id'] using this

def fill (label : Scope α → String) (built : View) (queue : List (Place × Scope α)) : View :=
  match queue with
  | [] => built
  | (p, s) :: rest =>
    fill label (attach built (p, ⟨label s, []⟩)) (rest ++ waiting (built.nextPlace p) s)
termination_by WorkList.weight (queue.map (·.2))
decreasing_by
  have := weight_waiting_lt (built.nextPlace p) s
  simp only [List.map_append, List.map_cons, WorkList.weight_append, WorkList.weight]
  omega

def filled (s : Scope Float) : View := fill viewLabel ⟨s.viewLabel, []⟩ (waiting [] s)

def pending (label : Scope α → String) (queue : List (Place × Scope α)) : List (Place × View) :=
  queue.map (Prod.map id (shown label))

theorem pending_waiting (label : Scope α → String) (p : Place) (s : Scope α) :
    pending label (waiting p s) = (s.scopes.map (shown label)).map (p, ·) := by
  rw [pending, waiting, List.map_map, List.map_map]
  rfl

theorem forall_mem_pending {label : Scope α → String} {queue : List (Place × Scope α)} {motive : Place → Prop} :
    (∀ e ∈ pending label queue, motive e.1) ↔ ∀ e ∈ queue, motive e.1 :=
  List.forall_mem_map

theorem forall_mem_waiting {p : Place} {s : Scope α} {motive : Place → Prop} (h : motive p) :
    ∀ e ∈ waiting p s, motive e.1 :=
  List.forall_mem_map.2 fun _ _ => h

/-- Filling from a queue adds each waiting scope with all that is nested in it. -/
theorem fill_eq_attachAll (label : Scope α → String) (built : View) (queue : List (Place × Scope α))
    (places : ∀ e ∈ queue, built.Has e.1) :
    fill label built queue = attachAll built (pending label queue) := by
  induction built, queue using fill.induct label with
  | case1 built =>
    rw [fill]
    rfl
  | case2 built p s rest ih =>
    obtain ⟨here, others⟩ := List.forall_mem_cons.1 places
    let grown := attach built (p, ⟨label s, []⟩)
    let inside := waiting (built.nextPlace p) s
    have kept : ∀ e ∈ rest, grown.Has e.1 := fun e member => View.has_update_push (others e member) _ _
    have new : ∀ e ∈ inside, grown.Has e.1 := forall_mem_waiting (View.has_nextPlace here _)
    -- no place that waited before is the one of the branch just added
    have apart : ∀ d ∈ rest, ∀ e ∈ inside, d.1 ≠ e.1 := fun d member =>
      forall_mem_waiting fun same => View.not_has_nextPlace here (same ▸ others d member)
    have whole : attachAll grown (pending label inside) = attach built (p, s.shown label) := by
      rw [pending_waiting, View.attachAll_place, shown_eq]
      exact View.update_nextPlace here _ _
    calc fill label built ((p, s) :: rest)
        = fill label grown (rest ++ inside) := by rw [fill]
      _ = attachAll grown (pending label (rest ++ inside)) := ih (List.forall_mem_append.2 ⟨kept, new⟩)
      _ = attachAll (attachAll grown (pending label rest)) (pending label inside) := by
          rw [pending, List.map_append, attachAll, List.foldl_append]
          rfl
      _ = attachAll (attachAll grown (pending label inside)) (pending label rest) :=
          View.attachAll_comm (forall_mem_pending.2 kept) (forall_mem_pending.2 new)
            (List.forall_mem_map.2 fun d member => forall_mem_pending.2 (apart d member))
      _ = attachAll built (pending label ((p, s) :: rest)) := by
          rw [whole]
          rfl

theorem filled_eq (s : Scope Float) : s.filled = s.shown viewLabel := by
  have root : View.Has ⟨s.viewLabel, []⟩ [] := rfl
  rw [filled, fill_eq_attachAll _ _ _ (forall_mem_waiting root), pending_waiting, View.attachAll_place, shown_eq]
  rfl

theorem share_map_shown (label : Scope α → String) (level : List (Scope α)) :
    share label level ((level.flatMap (·.scopes)).map (shown label)) = level.map (shown label) := by
  induction level with
  | nil => rfl
  | cons s level ih =>
    have own : (s.scopes.map (shown label)).length = s.scopes.length := List.length_map _
    rw [share, List.flatMap_cons, List.map_append, ← own, List.take_left, List.drop_left, ih, List.map_cons, shown_eq]

theorem views_eq (label : Scope α → String) (level : List (Scope α)) :
    views label level = level.map (shown label) := by
  induction level using views.induct with
  | case1 => rw [views, List.map_nil]
  | case2 s rest ih => rw [views, ih, share_map_shown]

theorem view_eq (s : Scope Float) : s.view = s.shown viewLabel := by
  rw [view, views_eq, shown_eq]

end Scope

end ScopeComplexity
