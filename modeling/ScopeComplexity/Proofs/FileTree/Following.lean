import Mathlib.Data.List.Basic
import ScopeComplexity.FileTree.Walk
import ScopeComplexity.Proofs.Path.Normal

namespace ScopeComplexity.FileTree

/-- A name that an entry of a directory can have: it means no step of its own, and is not too long. -/
structure OrdinaryName (name : String) : Prop where
  isName : Path.IsName name
  notUp : name ≠ ".."
  short : name.utf8ByteSize ≤ nameLimit

instance : DecidablePred OrdinaryName := fun name =>
  decidable_of_iff
    ((Path.isPart name.toList = true ∧ '/' ∉ name.toList) ∧ name ≠ ".." ∧ name.utf8ByteSize ≤ nameLimit)
    ⟨fun ⟨isName, notUp, short⟩ => ⟨isName, notUp, short⟩,
      fun ⟨isName, notUp, short⟩ => ⟨isName, notUp, short⟩⟩

theorem OrdinaryName.nonempty {name : String} (h : OrdinaryName name) : name ≠ "" := by
  rintro rfl
  exact absurd h.isName.1 (by decide)

theorem descend_append (before after : List String) (t : FileTree) :
    t.descend (before ++ after) = (t.descend before).bind (descend after) := by
  induction before generalizing t with
  | nil => rfl
  | cons name before ih =>
    rw [List.cons_append, descend, descend, Option.bind_assoc]
    exact Option.bind_congr fun inner _ => ih inner

theorem descend_concat {root : FileTree} {here : List String} {entries : List (String × FileTree)}
    (directory : root.descend here = some (.directory entries)) (name : String) :
    root.descend (here ++ [name]) = entries.lookup name := by
  rw [descend_append, directory]
  change (entries.lookup name).bind some = _
  exact Option.bind_fun_some _

variable {root : FileTree} {through : Bool} {links : Nat} {here names rest : List String}

@[simp] theorem follow_nil : follow root through links here [] = .ok ⟨here, links⟩ := by
  rw [follow]

section Entry

variable {name : String} {entries : List (String × FileTree)}

theorem follow_cons (ordinary : OrdinaryName name)
    (directory : root.descend here = some (.directory entries)) :
    follow root through links here (name :: rest) =
      match entries.lookup name with
      | none => .error .missing
      | some (.link target) =>
        if rest.isEmpty && !through then .ok ⟨here ++ [name], links⟩
        else
          match links with
          | 0 => .error .tooManyLinks
          | links + 1 =>
            follow root through links (linkStart target here) (linkNames target ++ rest)
      | some _ => follow root through links (here ++ [name]) rest := by
  have kept : (name == "" || name == ".") = false := by
    have part := ordinary.isName.1
    rw [Bool.or_eq_false_iff, beq_eq_false_iff_ne, beq_eq_false_iff_ne]
    constructor <;> rintro rfl <;> exact absurd part (by decide)
  have notUp : (name == "..") = false := beq_eq_false_iff_ne.2 ordinary.notUp
  have short : ¬nameLimit < name.utf8ByteSize := Nat.not_lt.2 ordinary.short
  cases found : entries.lookup name with
  | none =>
    rw [follow]
    simp [directory, kept, notUp, short, found]
  | some t =>
    rw [follow]
    cases t with
    | file content => simp [directory, kept, notUp, short, found]
    | directory inner => simp [directory, kept, notUp, short, found]
    | link target => cases links <;> simp [directory, kept, notUp, short, found]

theorem follow_longName (directory : root.descend here = some (.directory entries))
    (long : nameLimit < name.utf8ByteSize) :
    follow root through links here (name :: rest) = .error .nameTooLong := by
  have moves : (name == "" || name == ".") = false := by
    rw [Bool.or_eq_false_iff, beq_eq_false_iff_ne, beq_eq_false_iff_ne]
    constructor <;> rintro rfl <;> exact absurd long (by decide)
  have notUp : (name == "..") = false := by
    rw [beq_eq_false_iff_ne]
    rintro rfl
    exact absurd long (by decide)
  rw [follow]
  simp only [directory, moves, notUp, Bool.false_eq_true, if_false, if_pos long]

theorem follow_of_descend {t last : FileTree} (ordinary : ∀ name ∈ names, OrdinaryName name)
    (start : root.descend here = some t) (found : t.descend names = some last)
    (direct : last.isLink = false) :
    follow root through links here names = .ok ⟨here ++ names, links⟩ := by
  induction names generalizing here t with
  | nil => rw [follow_nil, List.append_nil]
  | cons name names ih =>
    obtain ⟨own, others⟩ := List.forall_mem_cons.1 ordinary
    obtain ⟨inner, member, below⟩ := Option.bind_eq_some_iff.1 found
    cases t with
    | file content => cases member
    | link target => cases member
    | directory entries =>
      have start' : root.descend (here ++ [name]) = some inner := (descend_concat start name).trans member
      have step : follow root through links here (name :: names) =
          follow root through links (here ++ [name]) names := by
        have lookup : entries.lookup name = some inner := member
        rw [follow_cons own start, lookup]
        cases inner with
        | file content => rfl
        | directory entries => rfl
        | link target =>
          cases names with
          | nil =>
            cases below
            cases direct
          | cons next names => cases below
      rw [step, ih others start' below, List.append_assoc]
      rfl

section Absolute

variable {last : FileTree} {work : List String} {p : Path} (short : p.size < pathLimit)
  (absolute : p.root ≠ .none) (ordinary : ∀ name ∈ p.parts, OrdinaryName name)
  (found : root.descend p.parts = some last) (direct : last.isLink = false)

include short absolute ordinary found direct

theorem locate_of_descend : root.locate work through p = .ok ⟨p.parts, linkLimit⟩ := by
  rw [locate, if_neg (Nat.not_le.2 short), if_neg absolute]
  exact follow_of_descend ordinary rfl found direct

theorem entry_of_descend : root.entry work through p = .ok last := by
  rw [entry, locate_of_descend short absolute ordinary found direct]
  simp only [bind, Except.bind, found]
  rfl

end Absolute

end Entry

theorem follow_append {p : Position} (h : follow root true links here names = .ok p)
    (more : rest ≠ []) :
    follow root through links here (names ++ rest) = follow root through p.linksLeft p.names rest := by
  have going (before : List String) : (before ++ rest).isEmpty = false := by simp [more]
  fun_induction follow root true links here names with
  | case1 =>
    cases h
    rfl
  | case2 links here name names entries directory still ih =>
    rw [List.cons_append, follow]
    simp only [directory, still, if_true]
    exact ih h
  | case3 links here name names entries directory moves up ih =>
    rw [List.cons_append, follow]
    simp only [directory, moves, up, if_true]
    exact ih h
  | case4 => cases h
  | case5 => cases h
  | case6 links here name names entries directory moves notUp short target found last =>
    simp at last
  | case7 => cases h
  | case8 here name names entries directory moves notUp short target found inside links ih =>
    rw [List.cons_append, follow]
    simp only [directory, moves, notUp, if_neg short, found, going, Bool.false_eq_true, Bool.false_and,
      if_false]
    rw [← List.append_assoc]
    exact ih h
  | case9 links here name names entries directory moves notUp short t direct found ih =>
    rw [List.cons_append, follow]
    simp only [directory, moves, notUp, if_neg short, found, Bool.false_eq_true, if_false]
    cases t with
    | link target => exact (direct target rfl).elim
    | file content => exact ih h
    | directory inner => exact ih h
  | case10 => cases h

end ScopeComplexity.FileTree
