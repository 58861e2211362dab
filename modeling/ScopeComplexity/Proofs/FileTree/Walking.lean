import Mathlib.Logic.Relation
import ScopeComplexity.FileTree.Walk
import ScopeComplexity.Proofs.FileTree.Directories

namespace ScopeComplexity

namespace Host

def IsDirectory (host : Host) (p : Path) : Prop :=
  ∃ entries, host.entry p = .ok (.directory entries)

def Holds (host : Host) (p : Path) (name : String) (t : FileTree) : Prop :=
  ∃ entries, host.entry p = .ok (.directory entries) ∧ (name, t) ∈ entries

def Lists (host : Host) (p : Path) (name : String) : Prop := ∃ t, host.Holds p name t

/-- One step of a walk, from a directory into another one that is listed in it. -/
def Enters (host : Host) (choice : FileTree.Choice) (p q : Path) : Prop :=
  ∃ name, host.Lists p name ∧ q = p.child name ∧ host.IsDirectory q ∧ choice.opens q = true ∧
    choice.enters name = true ∧ (choice.throughLinks = true ∨ host.isLink q = .ok false)

/-- An entry that a walk takes for a file. To one that it cannot open it is a file unless it is a directory
without any link. -/
def Takes (host : Host) (choice : FileTree.Choice) (p q : Path) : Prop :=
  ∃ name t, host.Holds p name t ∧ q = p.child name ∧ choice.takes name = true ∧
    if choice.opens q then ¬host.IsDirectory q else ∀ entries, t ≠ .directory entries

variable {host : Host} {choice : FileTree.Choice} {p : Path} {s : FileTree.Stop}

theorem isDirectory_iff : host.IsDirectory p ↔ ∃ s, host.IsAt p s := by
  constructor
  · rintro ⟨entries, found⟩
    obtain ⟨position, there⟩ := entry_eq_directory_iff.1 found
    exact ⟨_, there⟩
  · rintro ⟨⟨position, entries⟩, there⟩
    exact ⟨entries, entry_eq_directory_iff.2 ⟨position, there⟩⟩

theorem IsAt.entry (h : host.IsAt p s) : host.entry p = .ok (.directory s.entries) :=
  entry_eq_directory_iff.2 ⟨s.position, h⟩

theorem IsAt.holds_iff (h : host.IsAt p s) {name : String} {t : FileTree} :
    host.Holds p name t ↔ (name, t) ∈ s.entries := by
  constructor
  · rintro ⟨entries, found, member⟩
    cases h.entry.symm.trans found
    exact member
  · intro member
    exact ⟨s.entries, h.entry, member⟩

namespace Holds

variable {name : String} {t : FileTree} (h : host.Holds p name t)

include h

theorem exists_isAt : ∃ s, host.IsAt p s ∧ (name, t) ∈ s.entries := by
  obtain ⟨entries, found, member⟩ := h
  obtain ⟨position, there⟩ := entry_eq_directory_iff.1 found
  exact ⟨_, there, member⟩

theorem followed (target : String) : host.entry (p.child name) ≠ .ok (.link target) := by
  obtain ⟨s, there, -⟩ := h.exists_isAt
  exact there.entry_child_ne_link target

variable (wellFormed : host.files.WellFormed)

include wellFormed

theorem ordinary : FileTree.OrdinaryName name := by
  obtain ⟨s, there, entry⟩ := h.exists_isAt
  exact there.ordinary_child wellFormed entry

variable (short : (p.child name).size < FileTree.pathLimit)

include short

theorem isLink_eq : host.isLink (p.child name) = .ok t.isLink := by
  obtain ⟨s, there, entry⟩ := h.exists_isAt
  exact there.isLink_child wellFormed short entry

theorem isDirectory_iff_of_direct (direct : t.isLink = false) :
    host.IsDirectory (p.child name) ↔ ∃ entries, t = .directory entries := by
  obtain ⟨s, there, entry⟩ := h.exists_isAt
  simp only [isDirectory_iff, ← there.directoryAt_iff wellFormed short entry]
  cases t with
  | link target => cases direct
  | file content => simp [FileTree.directoryAt]
  | directory entries => simp [FileTree.directoryAt]

end Holds

end Host

namespace FileTree

variable {host : Host} {choice : Choice} {p : Path} {s : Stop}

section Stop

variable (h : host.IsAt p s) (wellFormed : host.files.WellFormed)
  (bounded : ∀ q, choice.opens q = true → q.size < pathLimit) {name : String} {t : FileTree}
  (entry : (name, t) ∈ s.entries)

include h wellFormed bounded entry

theorem stopAt_eq_some_iff (opens : choice.opens (p.child name) = true) {next : Stop} :
    stopAt host.files choice p s (name, t) = some next ↔ host.IsAt (p.child name) next := by
  rw [stopAt, opens, Bool.not_true, Bool.and_false, if_neg Bool.false_ne_true]
  exact h.directoryAt_iff wellFormed (bounded _ opens) entry

theorem entersEntry_iff (opens : choice.opens (p.child name) = true) :
    entersEntry choice (name, t) = true ↔ choice.enters name = true ∧
      (choice.throughLinks = true ∨ host.isLink (p.child name) = .ok false) := by
  rw [h.isLink_child wellFormed (bounded _ opens) entry, entersEntry]
  simp

theorem stopAt_eq_none_iff :
    stopAt host.files choice p s (name, t) = none ↔
      if choice.opens (p.child name) then ¬host.IsDirectory (p.child name)
      else ∀ entries, t ≠ .directory entries := by
  cases opens : choice.opens (p.child name) with
  | true =>
    rw [if_pos rfl, Host.isDirectory_iff, Option.eq_none_iff_forall_not_mem, not_exists]
    exact forall_congr' fun next => not_congr (stopAt_eq_some_iff h wellFormed bounded entry opens)
  | false =>
    rw [if_neg Bool.false_ne_true, stopAt, opens]
    cases t <;> simp [FileTree.isLink, directoryAt]

end Stop

section Walk

variable (wellFormed : host.files.WellFormed)
  (bounded : ∀ q, choice.opens q = true → q.size < pathLimit)

theorem mem_walk_step (opens : choice.opens p = true) {q : Path} :
    q ∈ walk host.files choice p s ↔
      q ∈ (takenFiles host.files choice p s).map p.child ∨
        ∃ e ∈ s.entries, entersEntry choice e = true ∧
          ∃ next, stopAt host.files choice p s e = some next ∧
            q ∈ walk host.files choice (p.child e.1) next := by
  rw [walk, opens, Bool.not_true, if_neg Bool.false_ne_true, List.mem_append, List.mem_flatMap]
  refine or_congr_right ⟨?_, ?_⟩
  · rintro ⟨⟨e, entry⟩, member, found⟩
    split at found
    · cases found
    next next stop =>
      rw [List.mem_mergeSort, List.mem_filter] at member
      exact ⟨e, entry, member.2, next, stop, found⟩
  · rintro ⟨e, entry, enters, next, stop, found⟩
    refine ⟨⟨e, entry⟩, ?_, ?_⟩
    · rw [List.mem_mergeSort, List.mem_filter]
      exact ⟨List.mem_attach _ _, enters⟩
    · split
      next none =>
        cases none.symm.trans stop
      next next' stop' =>
        cases stop'.symm.trans stop
        exact found

theorem walk_eq_takenFiles (opens : choice.opens p = true) {root : FileTree}
    (flat : ∀ e ∈ s.entries, stopAt root choice p s e = none) :
    walk root choice p s = (takenFiles root choice p s).map p.child := by
  rw [walk, opens, Bool.not_true, if_neg Bool.false_ne_true, List.append_right_eq_self,
    List.flatMap_eq_nil_iff]
  intro e _
  split
  · rfl
  next next stop => cases (flat e.1 e.2).symm.trans stop

theorem opens_of_mem_walk {q : Path} (found : q ∈ walk host.files choice p s) :
    choice.opens p = true := by
  cases opens : choice.opens p with
  | true => rfl
  | false =>
    rw [walk, opens, Bool.not_false, if_pos rfl] at found
    cases found

include wellFormed bounded

theorem mem_takenFiles_iff (h : host.IsAt p s) {q : Path} :
    q ∈ (takenFiles host.files choice p s).map p.child ↔ host.Takes choice p q := by
  simp only [takenFiles, List.map_map, List.mem_map, List.mem_mergeSort, List.mem_filter, Bool.and_eq_true,
    Option.isNone_iff_eq_none]
  constructor
  · rintro ⟨⟨name, t⟩, ⟨entry, none, takes⟩, rfl⟩
    exact ⟨name, t, h.holds_iff.2 entry, rfl, takes, (stopAt_eq_none_iff h wellFormed bounded entry).1 none⟩
  · rintro ⟨name, t, held, rfl, takes, file⟩
    have entry := h.holds_iff.1 held
    exact ⟨(name, t), ⟨entry, (stopAt_eq_none_iff h wellFormed bounded entry).2 file, takes⟩, rfl⟩

theorem mem_walk_iff (h : host.IsAt p s) (opens : choice.opens p = true) {q : Path} :
    q ∈ walk host.files choice p s ↔
      ∃ d, Relation.ReflTransGen (host.Enters choice) p d ∧ host.Takes choice d q := by
  -- by the recursion of the walk: what it finds behind an entry is reached by a step through that entry
  induction p, s using walk.induct host.files choice with
  | case1 p s closed =>
    rw [opens] at closed
    cases closed
  | case2 p s _ ih =>
    rw [mem_walk_step opens, mem_takenFiles_iff wellFormed bounded h]
    constructor
    · rintro (own | ⟨⟨name, t⟩, entry, enters, next, stop, found⟩)
      · exact ⟨p, .refl, own⟩
      · have opens' := opens_of_mem_walk found
        have there := (stopAt_eq_some_iff h wellFormed bounded entry opens').1 stop
        have entered : host.Enters choice p (p.child name) :=
          ⟨name, ⟨t, h.holds_iff.2 entry⟩, rfl, Host.isDirectory_iff.2 ⟨next, there⟩, opens',
            (entersEntry_iff h wellFormed bounded entry opens').1 enters⟩
        obtain ⟨d, below, takes⟩ := (ih ⟨_, entry⟩ next stop there opens').1 found
        exact ⟨d, .head entered below, takes⟩
    · rintro ⟨d, below, takes⟩
      obtain rfl | ⟨c, entered, below⟩ := Relation.ReflTransGen.cases_head_iff.1 below
      · exact .inl takes
      · obtain ⟨name, ⟨t, held⟩, rfl, directory, opens', enters⟩ := entered
        have entry := h.holds_iff.1 held
        obtain ⟨next, there⟩ := Host.isDirectory_iff.1 directory
        have stop := (stopAt_eq_some_iff h wellFormed bounded entry opens').2 there
        have found := (ih ⟨_, entry⟩ next stop there opens').2 ⟨d, below, takes⟩
        exact .inr ⟨(name, t), entry, (entersEntry_iff h wellFormed bounded entry opens').2 enters, next,
          stop, found⟩

end Walk

end FileTree

end ScopeComplexity
