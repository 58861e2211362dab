import ScopeComplexity.FileTree

namespace ScopeComplexity.FileTree

structure Stop where
  position : Position
  entries : List (String × FileTree)

def directoryAt (root : FileTree) (here : Position) (name : String) : FileTree → Option Stop
  | .directory entries => some ⟨⟨here.names ++ [name], here.linksLeft⟩, entries⟩
  | .file _ => none
  | .link target =>
    match here.linksLeft with
    | 0 => none
    | links + 1 =>
      match follow root true links (linkStart target here.names) (linkNames target) with
      | .error _ => none
      | .ok position =>
        match root.descend position.names with
        | some (.directory entries) => some ⟨position, entries⟩
        | _ => none

theorem directoryAt_lt {root : FileTree} {here : Position} {name : String} {t : FileTree} {s : Stop}
    (h : directoryAt root here name t = some s) :
    s.position.linksLeft < here.linksLeft ∨
      (s.position.linksLeft = here.linksLeft ∧ sizeOf s.entries < sizeOf t) := by
  cases t with
  | file content => simp [directoryAt] at h
  | directory entries =>
    simp only [directoryAt, Option.some.injEq] at h
    subst h
    simp
  | link target =>
    simp only [directoryAt] at h
    split at h
    · simp at h
    next links hl =>
      split at h
      · simp at h
      next position hp =>
        split at h
        next entries _ =>
          simp only [Option.some.injEq] at h
          subst h
          have := linksLeft_follow_le hp
          simp only
          omega
        · simp at h

structure Choice where
  enters : String → Bool
  takes : String → Bool
  throughLinks : Bool
  opens : Path → Bool

def byName (a b : String × β) : Bool := a.1 ≤ b.1

def stopAt (root : FileTree) (choice : Choice) (path : Path) (s : Stop) (e : String × FileTree) :
    Option Stop :=
  if e.2.isLink && !choice.opens (path.child e.1) then none
  else directoryAt root s.position e.1 e.2

theorem directoryAt_of_stopAt {root : FileTree} {choice : Choice} {path : Path} {s next : Stop}
    {e : String × FileTree} (h : stopAt root choice path s e = some next) :
    directoryAt root s.position e.1 e.2 = some next := by
  simp only [stopAt] at h
  split at h
  · simp at h
  · exact h

def takenFiles (root : FileTree) (choice : Choice) (path : Path) (s : Stop) : List String :=
  ((s.entries.filter fun e => (stopAt root choice path s e).isNone && choice.takes e.1).mergeSort
    byName).map (·.1)

def entersEntry (choice : Choice) (e : String × FileTree) : Bool :=
  choice.enters e.1 && (choice.throughLinks || !e.2.isLink)

def walk (root : FileTree) (choice : Choice) (path : Path) (s : Stop) : List Path :=
  let inner := (s.entries.attach.filter fun e => entersEntry choice e.1).mergeSort
    fun a b => byName a.1 b.1
  if !choice.opens path then []
  else
    (takenFiles root choice path s).map path.child ++ inner.flatMap fun e =>
      match _h : stopAt root choice path s e.1 with
      | none => []
      | some next => walk root choice (path.child e.1.1) next
termination_by (s.position.linksLeft, sizeOf s.entries)
decreasing_by
  have member := List.sizeOf_lt_of_mem e.2
  obtain ⟨⟨name, t⟩, _⟩ := e
  simp only [Prod.mk.sizeOf_spec] at member
  rcases directoryAt_lt (directoryAt_of_stopAt _h) with h | ⟨same, h⟩
  · exact Prod.Lex.left _ _ h
  · rw [same]
    exact Prod.Lex.right _ (by simp only at h; omega)

end ScopeComplexity.FileTree
