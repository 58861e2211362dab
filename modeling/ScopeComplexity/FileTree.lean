import ScopeComplexity.FileTree.Obstacle
import ScopeComplexity.Path

/-!
Trees of files, directories and symbolic links, and where a path leads in one. Links are followed as they
come, but only so many of them on one way.
-/

namespace ScopeComplexity

/-- There are no other kinds of entry than these, and no permissions. Which files may be read is for the host to say. -/
inductive FileTree where
  | file (content : ByteArray)
  | directory (entries : List (String × FileTree))
  | link (target : String)
  deriving Inhabited

namespace FileTree

def entries : FileTree → List (String × FileTree)
  | .directory entries => entries
  | _ => []

def isLink : FileTree → Bool
  | .link _ => true
  | _ => false

def descend : List String → FileTree → Option FileTree
  | [], t => some t
  | name :: names, t => (t.entries.lookup name).bind (descend names)

def insert : FileTree → List String → FileTree → FileTree
  | _, [], entry => entry
  | t, name :: names, entry =>
    let inner := insert ((t.entries.lookup name).getD (.directory [])) names entry
    if (t.entries.lookup name).isSome then
      .directory (t.entries.map fun e => if e.1 == name then (name, inner) else e)
    else .directory (t.entries ++ [(name, inner)])

/-- Where a way ends: the directories from the root down, and how many more links it may take. -/
structure Position where
  names : List String
  linksLeft : Nat

def linkLimit : Nat := 40

def nameLimit : Nat := 255

/-- From this many bytes on a path is not even looked at. -/
def pathLimit : Nat := 4096

def linkStart (target : String) (here : List String) : List String :=
  if (Path.ofText target).root = .none then here else []

def linkNames (target : String) : List String :=
  (Path.splitAt '/' target.toList).map String.ofList

def follow (root : FileTree) (through : Bool) (links : Nat) (here : List String)
    (names : List String) : Except Obstacle Position :=
  match names with
  | [] => .ok ⟨here, links⟩
  | name :: rest =>
    match root.descend here with
    | some (.directory entries) =>
      if name == "" || name == "." then follow root through links here rest
      else if name == ".." then follow root through links here.dropLast rest
      else if nameLimit < name.utf8ByteSize then .error .nameTooLong
      else
        match entries.lookup name with
        | none => .error .missing
        | some (.link target) =>
          if rest.isEmpty && !through then .ok ⟨here ++ [name], links⟩
          else
            match links with
            | 0 => .error .tooManyLinks
            | links + 1 =>
              follow root through links (linkStart target here) (linkNames target ++ rest)
        | some _ => follow root through links (here ++ [name]) rest
    | _ => .error .notDirectory
termination_by (links, names.length)

theorem linksLeft_follow_le {root : FileTree} {through : Bool} {links : Nat} {here names : List String}
    {p : Position} (h : follow root through links here names = .ok p) : p.linksLeft ≤ links := by
  fun_induction follow root through links here names
  all_goals simp_all
  all_goals first
    | omega
    | (subst h; simp)

def locate (root : FileTree) (work : List String) (through : Bool) (p : Path) :
    Except Obstacle Position :=
  if pathLimit ≤ p.size then .error .nameTooLong
  else follow root through linkLimit (if p.root = .none then work else []) p.parts

def entry (root : FileTree) (work : List String) (through : Bool) (p : Path) :
    Except Obstacle FileTree := do
  let position ← locate root work through p
  match root.descend position.names with
  | some t => return t
  | none => throw .missing

def read (root : FileTree) (work : List String) (p : Path) : Except Obstacle ByteArray := do
  match ← entry root work true p with
  | .file content => return content
  | .directory _ => throw .isDirectory
  | .link _ => throw .tooManyLinks

end FileTree

end ScopeComplexity
