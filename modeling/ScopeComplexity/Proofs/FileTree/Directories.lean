import ScopeComplexity.Host
import ScopeComplexity.Proofs.FileTree.Following
import ScopeComplexity.Proofs.FileTree.Legal
import ScopeComplexity.Proofs.Keyed

namespace ScopeComplexity

namespace FileTree

/-- Trees as a file system has them: the names in a directory are ordinary and all different. -/
inductive WellFormed : FileTree → Prop where
  | file (content : ByteArray) : WellFormed (.file content)
  | link (target : String) : WellFormed (.link target)
  | directory {entries : List (String × FileTree)} (names : ∀ e ∈ entries, OrdinaryName e.1)
      (distinct : (Keyed.keys entries).Nodup) (inner : ∀ e ∈ entries, WellFormed e.2) :
      WellFormed (.directory entries)

theorem WellFormed.legal {t : FileTree} (h : t.WellFormed) : t.Legal := by
  induction h with
  | file content => exact .file content
  | link target => exact .link target
  | directory names distinct inner ih => exact .directory (fun e member => (names e member).isName) ih

theorem WellFormed.descend {t : FileTree} (h : t.WellFormed) {names : List String} {below : FileTree}
    (found : t.descend names = some below) : below.WellFormed := by
  induction names generalizing t with
  | nil =>
    cases found
    exact h
  | cons name names ih =>
    obtain ⟨inner, entry, rest⟩ := Option.bind_eq_some_iff.1 found
    cases h with
    | file content => cases entry
    | link target => cases entry
    | directory names distinct wellFormed =>
      exact ih (wellFormed (name, inner) (Keyed.mem_of_get?_eq_some entry)) rest

theorem exists_directory_dropLast {root : FileTree} {here : List String}
    {entries : List (String × FileTree)} (h : root.descend here = some (.directory entries)) :
    ∃ outer, root.descend here.dropLast = some (.directory outer) := by
  rcases List.eq_nil_or_concat here with rfl | ⟨above, name, rfl⟩
  · exact ⟨entries, h⟩
  · rw [List.concat_eq_append] at h ⊢
    rw [descend_append] at h
    obtain ⟨t, found, below⟩ := Option.bind_eq_some_iff.1 h
    rw [List.dropLast_concat, found]
    cases t with
    | file content => cases below
    | link target => cases below
    | directory outer => exact ⟨outer, rfl⟩

theorem linkNames_ne_nil (target : String) : linkNames target ≠ [] := by
  rw [linkNames, Path.splitAt_eq_splitOn, ne_eq, List.map_eq_nil_iff]
  exact List.splitOn_ne_nil _ _

theorem descend_follow_ne_link {root : FileTree} {links : Nat} {here names : List String}
    {p : Position} (h : follow root true links here names = .ok p)
    (moves : names ≠ [] ∨ ∀ target, root.descend here ≠ some (.link target)) (target : String) :
    root.descend p.names ≠ some (.link target) := by
  fun_induction follow root true links here names with
  | case1 =>
    cases h
    exact moves.resolve_left (· rfl) target
  | case2 links here name names entries directory still ih =>
    exact ih h (.inr fun target => by simp [directory])
  | case3 links here name names entries directory moves up ih =>
    obtain ⟨outer, above⟩ := exists_directory_dropLast directory
    exact ih h (.inr fun target => by simp [above])
  | case4 => cases h
  | case5 => cases h
  | case6 links here name names entries directory moves notUp short target found last => simp at last
  | case7 => cases h
  | case8 here name names entries directory moves notUp short linked found inside links ih =>
    exact ih h (.inl (List.append_ne_nil_of_left_ne_nil (linkNames_ne_nil linked) names))
  | case9 links here name names entries directory moves notUp short t direct found ih =>
    refine ih h (.inr fun target below => ?_)
    rw [descend_concat directory, found] at below
    exact direct target (Option.some.inj below)
  | case10 => cases h

theorem directoryAt_link_iff {root : FileTree} {here : Position} {name target : String} {next : Stop} :
    directoryAt root here name (.link target) = some next ↔
      ∃ links, here.linksLeft = links + 1 ∧
        follow root true links (linkStart target here.names) (linkNames target) = .ok next.position ∧
        root.descend next.position.names = some (.directory next.entries) := by
  rw [directoryAt]
  cases here.linksLeft with
  | zero => simp
  | succ links =>
    simp only [Nat.succ.injEq, exists_eq_left']
    cases follow root true links (linkStart target here.names) (linkNames target) with
    | error o => simp
    | ok position =>
      obtain ⟨position', entries⟩ := next
      simp only [Except.ok.injEq]
      constructor
      · intro found
        split at found
        next directory =>
          cases found
          exact ⟨rfl, directory⟩
        next => cases found
      · rintro ⟨rfl, directory⟩
        simp only [directory]

theorem entry_eq_ok_iff {root t : FileTree} {work : List String} {through : Bool} {p : Path} :
    root.entry work through p = .ok t ↔
      ∃ position, root.locate work through p = .ok position ∧ root.descend position.names = some t := by
  rw [entry]
  cases root.locate work through p with
  | error o => simp [bind, Except.bind]
  | ok position =>
    simp only [bind, Except.bind, Except.ok.injEq, exists_eq_left']
    cases root.descend position.names with
    | none => simp [throw, throwThe, MonadExceptOf.throw]
    | some t' => simp [pure, Except.pure]

theorem size_lt_of_locate {root : FileTree} {work : List String} {through : Bool} {p : Path}
    {position : Position} (h : root.locate work through p = .ok position) : p.size < pathLimit := by
  rw [locate] at h
  by_contra long
  rw [if_pos (Nat.le_of_not_lt long)] at h
  cases h

end FileTree

namespace Host

/-- The directory that a path leads to. -/
structure IsAt (host : Host) (p : Path) (s : FileTree.Stop) : Prop where
  located : host.locate p = .ok s.position
  directory : host.files.descend s.position.names = some (.directory s.entries)

variable {host : Host} {p : Path} {s : FileTree.Stop}

theorem entry_eq_directory_iff {entries : List (String × FileTree)} :
    host.entry p = .ok (.directory entries) ↔ ∃ position, host.IsAt p ⟨position, entries⟩ := by
  rw [entry, FileTree.entry_eq_ok_iff]
  exact exists_congr fun position => ⟨fun ⟨located, directory⟩ => ⟨located, directory⟩,
    fun ⟨located, directory⟩ => ⟨located, directory⟩⟩

theorem size_lt_of_entry {t : FileTree} (h : host.entry p = .ok t) : p.size < FileTree.pathLimit := by
  rw [entry, FileTree.entry_eq_ok_iff] at h
  obtain ⟨position, located, -⟩ := h
  exact FileTree.size_lt_of_locate located

theorem size_lt_of_isLink {linked : Bool} (h : host.isLink p = .ok linked) : p.size < FileTree.pathLimit := by
  by_contra long
  rw [isLink, FileTree.entry, FileTree.locate, if_pos (Nat.le_of_not_lt long)] at h
  cases h

namespace IsAt

theorem size_lt (h : host.IsAt p s) : p.size < FileTree.pathLimit :=
  FileTree.size_lt_of_locate h.located

variable {name : String} {t : FileTree}

theorem locate_child (h : host.IsAt p s) (short : (p.child name).size < FileTree.pathLimit)
    (through : Bool) :
    host.files.locate host.work.parts through (p.child name) =
      host.files.follow through s.position.linksLeft s.position.names [name] := by
  have located := h.located
  rw [locate, FileTree.locate, if_neg (Nat.not_le.2 h.size_lt)] at located
  rw [FileTree.locate, if_neg (Nat.not_le.2 short)]
  exact FileTree.follow_append located (List.cons_ne_nil _ _)

section Entry

variable (h : host.IsAt p s) (wellFormed : host.files.WellFormed)
  (short : (p.child name).size < FileTree.pathLimit) (entry : (name, t) ∈ s.entries)

include h wellFormed entry

theorem ordinary_child : FileTree.OrdinaryName name := by
  cases wellFormed.descend h.directory with
  | directory names distinct inner => exact names _ entry

theorem lookup_child : s.entries.lookup name = some t := by
  cases wellFormed.descend h.directory with
  | directory names distinct inner => exact (Keyed.get?_eq_some_iff distinct).2 entry

include short

theorem directoryAt_iff {next : FileTree.Stop} :
    FileTree.directoryAt host.files s.position name t = some next ↔ host.IsAt (p.child name) next := by
  have way : host.locate (p.child name) = _ := h.locate_child short true
  have below : host.files.descend (s.position.names ++ [name]) = some t :=
    (FileTree.descend_concat h.directory name).trans (h.lookup_child wellFormed entry)
  rw [FileTree.follow_cons (h.ordinary_child wellFormed entry) h.directory,
    h.lookup_child wellFormed entry] at way
  cases t with
  | file content =>
    rw [FileTree.follow_nil] at way
    constructor
    · intro found
      cases found
    · obtain ⟨position, entries⟩ := next
      rintro ⟨located, directory⟩
      cases way.symm.trans located
      cases below.symm.trans directory
  | directory entries =>
    rw [FileTree.follow_nil] at way
    constructor
    · intro found
      cases found
      exact ⟨way, below⟩
    · obtain ⟨position, entries'⟩ := next
      rintro ⟨located, directory⟩
      cases way.symm.trans located
      cases below.symm.trans directory
      rfl
  | link target =>
    rw [FileTree.directoryAt_link_iff]
    simp only [Bool.not_true, Bool.and_false, Bool.false_eq_true, if_false, List.append_nil] at way
    constructor
    · rintro ⟨links, left, goes, directory⟩
      rw [left] at way
      exact ⟨way.trans goes, directory⟩
    · rintro ⟨located, directory⟩
      rw [located] at way
      cases left : s.position.linksLeft with
      | zero =>
        rw [left] at way
        cases way
      | succ links =>
        rw [left] at way
        exact ⟨links, rfl, way.symm, directory⟩

theorem isLink_child : host.isLink (p.child name) = .ok t.isLink := by
  have below : host.files.descend (s.position.names ++ [name]) = some t :=
    (FileTree.descend_concat h.directory name).trans (h.lookup_child wellFormed entry)
  have way := h.locate_child short false
  rw [FileTree.follow_cons (h.ordinary_child wellFormed entry) h.directory,
    h.lookup_child wellFormed entry] at way
  have found : host.files.entry host.work.parts false (p.child name) = .ok t := by
    rw [FileTree.entry_eq_ok_iff]
    refine ⟨⟨s.position.names ++ [name], s.position.linksLeft⟩, ?_, below⟩
    cases t with
    | file content => rw [way, FileTree.follow_nil]
    | directory entries => rw [way, FileTree.follow_nil]
    | link target => rw [way]; rfl
  rw [isLink, found]

omit wellFormed entry short in
theorem entry_child_ne_link (target : String) : host.entry (p.child name) ≠ .ok (.link target) := by
  rw [Host.entry, ne_eq, FileTree.entry_eq_ok_iff]
  rintro ⟨position, located, ends⟩
  rw [h.locate_child (FileTree.size_lt_of_locate located) true] at located
  exact FileTree.descend_follow_ne_link located (.inl (List.cons_ne_nil _ _)) target ends

end Entry

end IsAt

end Host

end ScopeComplexity
