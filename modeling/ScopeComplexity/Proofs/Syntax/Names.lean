import ScopeComplexity.Proofs.Syntax.Place
import ScopeComplexity.Proofs.Text.Utf8

namespace ScopeComplexity.Syntax.Node

def declarator? : Nat → Node → Option Node
  | 0, n => some n
  | k + 1, n => (n.child? "declarator").bind (declarator? k)

/-- Following `k` declarators leads from `n` to `d`, which has none. -/
structure EndsAt (n : Node) (k : Nat) (d : Node) : Prop where
  here : n.declarator? k = some d
  last : d.child? "declarator" = none

variable {n inner d : Node} {k : Nat}

theorem declarator?_succ (next : n.child? "declarator" = some inner) (k : Nat) :
    n.declarator? (k + 1) = inner.declarator? k := by
  rw [declarator?, next, Option.bind_some]

theorem endsAt_succ_iff (next : n.child? "declarator" = some inner) : n.EndsAt (k + 1) d ↔ inner.EndsAt k d := by
  constructor
  · rintro ⟨here, last⟩
    exact ⟨declarator?_succ next k ▸ here, last⟩
  · rintro ⟨here, last⟩
    exact ⟨(declarator?_succ next k).trans here, last⟩

theorem endsAt_zero_iff : n.EndsAt 0 d ↔ n = d ∧ n.child? "declarator" = none := by
  constructor
  · rintro ⟨here, last⟩
    cases here
    exact ⟨rfl, last⟩
  · rintro ⟨rfl, last⟩
    exact ⟨rfl, last⟩

theorem EndsAt.exists_pred (h : n.EndsAt (k + 1) d) :
    ∃ inner, n.child? "declarator" = some inner ∧ inner.EndsAt k d := by
  obtain ⟨inner, next, here⟩ := Option.bind_eq_some_iff.1 h.here
  exact ⟨inner, next, here, h.last⟩

theorem exists_endsAt (n : Node) : ∃ k, n.EndsAt k n.lastDeclarator := by
  induction n using lastDeclarator.induct with
  | case1 n last => exact ⟨0, endsAt_zero_iff.2 ⟨(lastDeclarator_of_none last).symm, last⟩⟩
  | case2 n inner next ih =>
    obtain ⟨k, ends⟩ := ih
    rw [lastDeclarator_of_some next]
    exact ⟨k + 1, (endsAt_succ_iff next).2 ends⟩

theorem EndsAt.unique {k' : Nat} {d' : Node} (h : n.EndsAt k d) (h' : n.EndsAt k' d') : k = k' ∧ d = d' := by
  induction k generalizing n k' with
  | zero =>
    obtain ⟨rfl, last⟩ := endsAt_zero_iff.1 h
    cases k' with
    | zero => exact ⟨rfl, (endsAt_zero_iff.1 h').1⟩
    | succ k' =>
      obtain ⟨inner, next, -⟩ := h'.exists_pred
      cases last.symm.trans next
  | succ k ih =>
    obtain ⟨inner, next, rest⟩ := h.exists_pred
    cases k' with
    | zero => cases next.symm.trans (endsAt_zero_iff.1 h').2
    | succ k' =>
      obtain ⟨same, end'⟩ := ih rest ((endsAt_succ_iff next).1 h')
      exact ⟨congrArg _ same, end'⟩

theorem EndsAt.eq_lastDeclarator (h : n.EndsAt k d) : d = n.lastDeclarator := by
  obtain ⟨k', ends⟩ := n.exists_endsAt
  exact (h.unique ends).2

theorem EndsAt.leads_on (h : n.EndsAt k d) {j : Nat} {m : Node} (before : j < k) (on : n.declarator? j = some m) :
    (m.child? "declarator").isSome := by
  induction k generalizing n j with
  | zero => cases before
  | succ k ih =>
    obtain ⟨inner, next, rest⟩ := h.exists_pred
    cases j with
    | zero =>
      cases on
      rw [next]
      rfl
    | succ j => exact ih rest (Nat.lt_of_succ_lt_succ before) (declarator?_succ next j ▸ on)

theorem exists_place_of_declarator? (s : Site) (on : s.node.declarator? k = some d) :
    ∃ p ∈ s.node.places, p.length = k ∧ (s.below p).node = d := by
  induction k generalizing s with
  | zero =>
    cases on
    exact ⟨[], Node.nil_mem_places _, rfl, rfl⟩
  | succ k ih =>
    obtain ⟨inner, next, on⟩ := Option.bind_eq_some_iff.1 on
    obtain ⟨i, -, found⟩ := Option.bind_eq_some_iff.1 next
    obtain ⟨p, member, length, here⟩ := ih ⟨inner, s.node :: s.above⟩ on
    refine ⟨i :: p, cons_mem_places found member, congrArg _ length, ?_⟩
    rw [Site.below_cons, Site.child_eq found]
    exact here

structure Naming (n : Node) : Prop where
  chain : ∃ k d, n.EndsAt k d ∧ (∀ k' d', n.EndsAt k' d' → k' = k ∧ d' = d) ∧
    (∀ j < k, ∀ m, n.declarator? j = some m → (m.child? "declarator").isSome) ∧
    ∃ p ∈ n.places, p.length = k ∧ ((Site.root n).below p).node = d
  name : ∀ c, n.child? "name" = some c → n.scopeName = c.label.text.map Text.decode
  declarator : n.child? "name" = none →
    ∀ k d, n.EndsAt (k + 1) d → n.scopeName = d.label.text.map Text.decode
  type : n.child? "name" = none → n.child? "declarator" = none →
    ∀ c, n.child? "type" = some c → n.scopeName = c.label.text.map Text.decode
  unnamed : n.child? "name" = none → n.child? "declarator" = none → n.child? "type" = none → n.scopeName = none

theorem nameNode?_of_endsAt (unnamed : n.child? "name" = none) (ends : n.EndsAt (k + 1) d) :
    n.nameNode? = some d := by
  obtain ⟨inner, next, rest⟩ := ends.exists_pred
  rw [nameNode?, unnamed, next, rest.eq_lastDeclarator]

theorem scopeName_of_nameNode? {c : Node} (h : n.nameNode? = some c) : n.scopeName = c.label.text.map Text.decode := by
  rw [scopeName, h]
  rfl

theorem naming (n : Node) : n.Naming where
  chain := by
    obtain ⟨k, ends⟩ := n.exists_endsAt
    refine ⟨k, _, ends, fun k' d' ends' => ends'.unique ends, fun j before m => ends.leads_on before, ?_⟩
    exact exists_place_of_declarator? (Site.root n) ends.here
  name c named := scopeName_of_nameNode? (by rw [nameNode?, named])
  declarator unnamed k d ends := scopeName_of_nameNode? (nameNode?_of_endsAt unnamed ends)
  type unnamed plain c typed := scopeName_of_nameNode? (by rw [nameNode?, unnamed, plain, typed])
  unnamed unnamed plain untyped := by
    rw [scopeName, nameNode?, unnamed, plain, untyped]
    rfl

/-- Every node is named by the first there is of its `name`, the end of its declarators and its `type`, and by no other
of them if that one has no text. Texts are read as they were written. -/
theorem scopeName_chosen : (∀ n : Node, n.Naming) ∧ ∀ text : String, Text.decode text.toUTF8 = text :=
  ⟨naming, Text.decode_toUTF8⟩

theorem scopeName_chosen_of_pointer :
    let name := Node.node { kind := "identifier", text := some "f".toUTF8 } []
    let function := Node.node { kind := "function_definition", fields := [("type", 0), ("declarator", 1)] }
      [.node { kind := "primitive_type", text := some "int".toUTF8 } [],
        .node { kind := "pointer_declarator", text := some "*f()".toUTF8, fields := [("declarator", 1)] }
          [.node { kind := "*", named := false } [],
            .node { kind := "function_declarator", text := some "f()".toUTF8, fields := [("declarator", 0)] } [name]]]
    function.EndsAt 3 name ∧ function.scopeName = some "f" := by
  intro name function
  have ends : function.EndsAt 3 name := ⟨rfl, rfl⟩
  have chosen := (scopeName_chosen.1 function).declarator rfl 2 name ends
  exact ⟨ends, chosen.trans (congrArg some (scopeName_chosen.2 "f"))⟩

end ScopeComplexity.Syntax.Node
