import ScopeComplexity.FileTree.Walk
import ScopeComplexity.Proofs.Path.Normal

namespace ScopeComplexity.FileTree

inductive Legal : FileTree → Prop where
  | file (content : ByteArray) : Legal (.file content)
  | link (target : String) : Legal (.link target)
  | directory {entries : List (String × FileTree)} (names : ∀ e ∈ entries, Path.IsName e.1)
      (inner : ∀ e ∈ entries, Legal e.2) : Legal (.directory entries)

theorem Legal.isName {t : FileTree} (h : t.Legal) : ∀ e ∈ t.entries, Path.IsName e.1 := by
  cases h with
  | file => exact List.forall_mem_nil _
  | link => exact List.forall_mem_nil _
  | directory names inner => exact names

theorem Legal.inner {t : FileTree} (h : t.Legal) : ∀ e ∈ t.entries, e.2.Legal := by
  cases h with
  | file => exact List.forall_mem_nil _
  | link => exact List.forall_mem_nil _
  | directory names inner => exact inner

theorem Legal.descend {t : FileTree} (h : t.Legal) {names : List String} {below : FileTree}
    (found : t.descend names = some below) : below.Legal := by
  induction names generalizing t with
  | nil =>
    cases found
    exact h
  | cons name names ih =>
    rw [FileTree.descend] at found
    obtain ⟨inner, entry, found⟩ := Option.bind_eq_some_iff.1 found
    obtain ⟨before, after, entries, -⟩ := List.lookup_eq_some_iff.1 entry
    apply ih _ found
    apply h.inner (name, inner)
    rw [entries]
    exact List.mem_append_right _ List.mem_cons_self

theorem Legal.directoryAt {root : FileTree} (h : root.Legal) {here : Position} {name : String}
    {t : FileTree} (legal : t.Legal) {s : Stop} (found : directoryAt root here name t = some s) :
    (FileTree.directory s.entries).Legal := by
  cases t with
  | file content => cases found
  | directory entries =>
    cases found
    exact legal
  | link target =>
    rw [FileTree.directoryAt] at found
    split at found
    · cases found
    · split at found
      · cases found
      · split at found
        · rename_i below
          cases found
          exact h.descend below
        · cases found

theorem Legal.walk {root : FileTree} (h : root.Legal) (choice : Choice) {path : Path} {s : Stop}
    (normal : path.Normal) (legal : (FileTree.directory s.entries).Legal) :
    ∀ p ∈ walk root choice path s, p.Normal := by
  induction path, s using FileTree.walk.induct root choice with
  | case1 path s closed =>
    rw [FileTree.walk, if_pos closed]
    exact List.forall_mem_nil _
  | case2 path s opened ih =>
    rw [FileTree.walk, if_neg opened]
    rw [List.forall_mem_append]
    constructor
    · rw [List.forall_mem_map, takenFiles, List.forall_mem_map]
      intro e member
      have entry := (List.mem_filter.1 (List.mem_mergeSort.1 member)).1
      exact normal.child (legal.isName e entry)
    · rw [List.forall_mem_flatMap]
      intro e _
      split
      · exact List.forall_mem_nil _
      · rename_i next found
        have inner := h.directoryAt (legal.inner e.1 e.2) (directoryAt_of_stopAt found)
        exact ih e next found (normal.child (legal.isName e.1 e.2)) inner

end ScopeComplexity.FileTree
